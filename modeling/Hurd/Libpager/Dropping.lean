import Hurd.Libpager.Returning

/-!
# Lock records to their end

`EndsAs` for the handlers that go through lock records, and then for every handler.  A record with
an internal flush is that of a page, and `internal_lock_completed` adds records for this page only,
so that the iterator of `drop_client` is where it would be had the lock never been released.
-/

namespace Hurd.Libpager

namespace Page

/-- An internal flush of the page is outstanding. -/
def Revoking (page : Page) : Prop :=
  ∃ client record, page.lock? client = some record ∧ record.internalLockOutstanding = true

variable {page next : Page} {client : MachPort} {results : PageCallbacks}

theorem Revoking.of_forget (revoking : (page.forget client).Revoking) : page.Revoking := by
  rcases revoking with ⟨other, record, found, isInternal⟩
  rw [forget_lock?] at found
  split_ifs at found
  exact ⟨other, record, found, isInternal⟩

theorem Revoking.of_countLock (revoking : (page.countLock client).Revoking) : page.Revoking := by
  rcases revoking with ⟨other, record, found, isInternal⟩
  have isCounted : (page.countLock client).lock? other =
      if other = client then
        some { (page.lock? client).getD {} with count := ((page.lock? client).getD {}).count + 1 }
      else page.lock? other := by
    rw [← find?_getD_locks page other]
    exact OrdMap.find?_insert ..
  rw [isCounted] at found
  split_ifs at found
  · cases found
    cases isRecord : page.lock? client with
    | none => simp [isRecord] at isInternal
    | some record =>
        rw [isRecord] at isInternal
        exact ⟨client, record, isRecord, isInternal⟩
  · exact ⟨other, record, found, isInternal⟩

theorem Revoking.of_foldl_countLock {clients : List MachPort}
    (revoking : (clients.foldl countLock page).Revoking) : page.Revoking := by
  induction clients generalizing page with
  | nil => exact revoking
  | cons client rest ih => exact (ih revoking).of_countLock

theorem Revoking.of_lockCompleted (answered : page.lockCompleted client results = some next)
    (revoking : next.Revoking) : page.Revoking := by
  cases lockCompleted_cases answered with
  | counted record found _ nextEq =>
      rcases revoking with ⟨other, otherRecord, isRecord, isInternal⟩
      rw [nextEq, storeLocks_lock?, OrdMap.find?_insert] at isRecord
      split_ifs at isRecord
      · cases isRecord
        exact ⟨client, record, found, isInternal⟩
      · rw [find?_getD_locks] at isRecord
        exact ⟨other, otherRecord, isRecord, isInternal⟩
  | external _ _ _ _ nextEq => exact (nextEq ▸ revoking).of_forget
  | internal record found _ isInternal _ => exact ⟨client, record, found, isInternal⟩

theorem Revoking.of_dropLocks (dropped : page.dropLocks client results = some next)
    (revoking : next.Revoking) : page.Revoking := by
  rcases dropLocks_cases dropped with ⟨record, found, isInternal, -⟩ | ⟨-, rfl⟩
  · exact ⟨client, record, found, isInternal⟩
  · exact revoking.of_forget

theorem Revoking.of_dropClient (handled : page.handle (.dropClient client) results = some next)
    (revoking : next.Revoking) : page.Revoking := by
  rcases Option.map_eq_some_iff.mp handled with ⟨dropped, isDropped, rfl⟩
  have sameLocks : (dropped.dropClient client).locks = dropped.locks := by
    unfold dropClient
    split_ifs <;> rfl
  rcases revoking with ⟨other, record, found, isInternal⟩
  rw [lock?, sameLocks] at found
  have isRevoking : dropped.Revoking := ⟨other, record, found, isInternal⟩
  exact isRevoking.of_dropLocks isDropped

end Page

/-- The pages of the message end where the offsets do; those that are returned end before that. -/
def Input.Fits : Input → Prop
  | .dataRequest _ offset length _ => offset + length ≤ offsetRange
  | .dataUnlock _ offset length => offset + length ≤ offsetRange
  | .dataReturn _ offset _ length _ _ => offset + length < offsetRange
  | _ => True

namespace Pager

variable {pager next : Pager} {number offset length : ℕ} {input : Input} {results : Callbacks}
  {client : MachPort}

/-- The pages that are being flushed have offsets. -/
def RevokesInRange (pager : Pager) : Prop :=
  ∀ number, (pager.page number).Revoking → (number + 1) * pager.pageSize ≤ offsetRange

theorem RevokesInRange.handle (inRange : pager.RevokesInRange) (quiet : pager.Quiet)
    (fits : input.Fits) (handled : pager.handle (input, results) = some next) :
    next.RevokesInRange := by
  rcases handle_view quiet handled with ⟨-, sameSize, -, projects⟩
  intro number revoking
  rw [sameSize]
  have isRevoking : (next.view number).Revoking := revoking
  rcases projects number with isSame | ⟨pageInput, reaches, isHandled⟩
  · rw [isSame] at isRevoking
    exact inRange number isRevoking
  cases reaches with
  | @dataRequest client offset access _ aligned =>
      rw [Nat.add_mul, Nat.one_mul, Nat.div_mul_cancel (Nat.dvd_of_mod_eq_zero aligned)]
      exact fits
  | dataUnlock _ _ _ _ isPage => exact (end_le_of_mem isPage).trans fits
  | dataReturn _ _ isPage _ => exact (end_le_of_mem isPage).trans (le_of_lt fits)
  | dataReturnUnmatched _ isPage _ => exact (end_le_of_mem isPage).trans (le_of_lt fits)
  | lockCompleted => exact inRange number (isRevoking.of_lockCompleted isHandled)
  | objectTerminate _ => exact inRange number (isRevoking.of_dropClient isHandled)
  | deadName _ => exact inRange number (isRevoking.of_dropClient isHandled)
  | lockObject clients _ =>
      have isCounted : clients.foldl Page.countLock (pager.page number) = next.view number :=
        Option.some_inj.mp isHandled
      rw [← isCounted] at isRevoking
      exact inRange number isRevoking.of_foldl_countLock
  | shutdown _ =>
      have isEnding : ({ pager.page number with terminating := true } : Page) = next.view number :=
        Option.some_inj.mp isHandled
      rw [← isEnding] at isRevoking
      exact inRange number isRevoking

/-- What holds between two handlers where every message has offsets -/
structure Settled (pager : Pager) : Prop extends Quiet pager where
  inRange : pager.RevokesInRange

theorem Settled.handle (settled : pager.Settled) (fits : input.Fits)
    (handled : pager.handle (input, results) = some next) : next.Settled :=
  ⟨(handle_view settled.toQuiet handled).1, settled.inRange.handle settled.toQuiet fits handled⟩

theorem create_settled (pageSize : ℕ) (pageSize_pos : 0 < pageSize) (mayCache : Bool)
    (copyStrategy : ℕ) (notifyOnEvict : Bool) :
    (create pageSize pageSize_pos mayCache copyStrategy notifyOnEvict).Settled := by
  refine ⟨create_quiet pageSize pageSize_pos mayCache copyStrategy notifyOnEvict, ?_⟩
  rintro number ⟨client, record, found, -⟩
  cases found

/-- A record with an internal flush is that of a page, and the page has an offset. -/
theorem key_of_internal (noInternal : pager.NoInternalElsewhere) (inRange : pager.RevokesInRange)
    {key : LockKey} {locks : OrdMap MachPort OutstandingClientLock}
    {record : OutstandingClientLock} (found : pager.outstandingLocks.find? key = some locks)
    (isRecord : locks.find? client = some record)
    (isInternal : record.internalLockOutstanding = true) :
    (∃ number, key = pager.pageKey number) ∧ (ofLex key).1 + (ofLex key).2 ≤ offsetRange := by
  have isPage : ∃ number, key = pager.pageKey number := by
    by_contra notPage
    rw [not_exists] at notPage
    have external := noInternal key notPage locks found client record isRecord
    rw [isInternal] at external
    cases external
  refine ⟨isPage, ?_⟩
  rcases isPage with ⟨number, rfl⟩
  have isLock : (pager.page number).lock? client = some record := by
    have isLocks : (pager.page number).locks = some locks := found
    rw [Page.lock?, isLocks]
    exact isRecord
  have isEnd := inRange number ⟨client, record, isLock, isInternal⟩
  rw [Nat.add_mul, Nat.one_mul] at isEnd
  exact isEnd

/-- `internal_lock_completed` for a page leaves the records of other pages and of no page. -/
theorem find?_internalLockCompleted {key other : LockKey} (isPage : key = pager.pageKey number)
    (done : pager.internalLockCompleted client (ofLex key).1 (ofLex key).2 results = some next)
    (different : other ≠ key) :
    next.outstandingLocks.find? other = pager.outstandingLocks.find? other := by
  subst isPage
  rcases internalLockCompleted_view done with ⟨rest, -, frame⟩
  by_cases isOther : ∃ third, other = pager.pageKey third
  · rcases isOther with ⟨third, rfl⟩
    have notNumber : third ≠ number := by
      rintro rfl
      exact different rfl
    have sameLocks : next.outstandingLocks.find? (next.pageKey third) =
        pager.outstandingLocks.find? (pager.pageKey third) :=
      congrArg Page.locks (frame third notNumber)
    rw [rest.pageKey] at sameLocks
    exact sameLocks
  · exact rest.locks other (not_exists.mp isOther)

/-- The lock loop of `drop_client` asks for the end of an internal flush. -/
theorem exists_internal {locks : OrdMap MachPort OutstandingClientLock}
    (required : ((locks.find? client).map (·.internalLockOutstanding)).getD false = true) :
    ∃ record, locks.find? client = some record ∧ record.internalLockOutstanding = true := by
  cases found : locks.find? client with
  | none => simp [found] at required
  | some record => exact ⟨record, rfl, by simpa [found] using required⟩

theorem find?_dropLocks (noInternal : pager.NoInternalElsewhere) (inRange : pager.RevokesInRange)
    {key other : LockKey} (done : pager.dropLocks client key results = some next)
    (different : other ≠ key) :
    next.outstandingLocks.find? other = pager.outstandingLocks.find? other := by
  unfold dropLocks at done
  cases found : pager.outstandingLocks.find? key with
  | none =>
      rw [found] at done
      cases done
      rfl
  | some locks =>
      rw [found] at done
      have isStored : ∀ locks, (pager.storeLocks key locks).outstandingLocks.find? other =
          pager.outstandingLocks.find? other := by
        intro locks
        rw [find?_storeLocks, if_neg different]
      dsimp only at done
      split_ifs at done with required
      · rcases exists_internal required with ⟨record, isRecord, isInternal⟩
        rcases key_of_internal noInternal inRange found isRecord isInternal with
          ⟨⟨number, isPage⟩, -⟩
        have samePage : key = (pager.storeLocks key (locks.erase client)).pageKey number := by
          rw [(pager.sameCore_storeLocks _ _).pageKey]
          exact isPage
        exact (find?_internalLockCompleted samePage done different).trans (isStored _)
      · cases done
        exact isStored _

theorem flushesInRange_dropLocks (noInternal : pager.NoInternalElsewhere)
    (inRange : pager.RevokesInRange) {key : LockKey}
    (done : pager.dropLocks client key results = some next) : next.RevokesInRange := by
  rcases dropLocks_view noInternal done with ⟨core, -, own, frame⟩
  intro number revoking
  rw [core.pageSize]
  have isRevoking : (next.view number).Revoking := revoking
  by_cases isKey : pager.pageKey number = key
  · have wasRevoking : (pager.view number).Revoking := isRevoking.of_dropLocks (own number isKey)
    exact inRange number wasRevoking
  · rw [frame number isKey] at isRevoking
    exact inRange number isRevoking

end Pager

section Records

variable {results : Callbacks} {past : List Event} {shared : SharedPager Interned} {pager : Pager}
  {client control : MachPort} {offset length number : ℕ}

theorem Mirrors.storeLocks (mirrors : Mirrors past shared pager) (key : LockKey)
    (locks : OrdMap MachPort OutstandingClientLock) :
    Mirrors past (shared.storeLocks key locks) (pager.storeLocks key locks) := by
  rw [SharedPager.storeLocks, Pager.storeLocks]
  split_ifs
  · exact (mirrors.emit _).setLocks _ _
  · exact mirrors.setLocks _ _

theorem objectInit_ends (mirrors : Mirrors past shared pager) (pagesize : ℕ) :
    EndsAs results past (shared.objectInit control pagesize) (pager.objectInit control pagesize) := by
  have inserted : Mirrors past { shared with clients := shared.clients.insert control }
      { pager with clients := pager.clients.insert control } :=
    { mirrors with clients := congrArg (OrdSet.insert control) mirrors.clients }
  have sameSize : pagesize ≠ shared.pageSize ↔ pagesize ≠ pager.pageSize := by
    rw [mirrors.pageSize]
  have sameEnding : shared.terminating = true ↔ pager.terminating = true := by
    rw [mirrors.terminating]
  have sameEvent : Event.ready control shared.mayCache shared.copyStrategy =
      .ready control pager.mayCache pager.copyStrategy := by
    rw [mirrors.mayCache, mirrors.copyStrategy]
  rw [SharedPager.objectInit, Pager.objectInit, if_congr sameSize rfl (if_congr sameEnding rfl rfl),
    sameEvent]
  split_ifs
  · exact .fails
  · exact .done mirrors
  · exact .done (inserted.emit _)

theorem lockCompleted_ends (mirrors : Mirrors past shared pager) (settled : pager.Settled) :
    EndsAs results past (shared.lockCompleted client offset length)
      (pager.lockCompleted client offset length results) := by
  rw [SharedPager.lockCompleted, Pager.lockCompleted, mirrors.outstandingLocks]
  dsimp only
  cases found : pager.outstandingLocks.find? (toLex (offset, length)) with
  | none => exact .fails
  | some locks =>
      rw [Option.bind_some]
      dsimp only
      cases isRecord : locks.find? client with
      | none => exact .fails
      | some record =>
          rw [Option.bind_some]
          dsimp only
          split_ifs with isZero isOne isInternal
          · exact .fails
          · have within := (Pager.key_of_internal settled.noInternalElsewhere settled.inRange
              found isRecord isInternal).2
            exact internalLockCompleted_ends_self (mirrors.storeLocks _ _) within
          · exact .done (mirrors.storeLocks _ _)
          · exact .done (mirrors.storeLocks _ _)

/-- A page as `drop_client` leaves it -/
def Pager.dropEntry (control : MachPort) (pager : Pager) (number : ℕ) : Pager :=
  { pager with
    pagemap := Function.update pager.pagemap number ((pager.page number).dropClient control).entry }

/-- An entry that is stored where nothing else has been done -/
theorem Mirrors.store (mirrors : Mirrors past shared pager) (page : Page)
    (sameLocks : page.locks = ((shared.load number).page number).locks)
    (sameErrors : page.nexterror = ((shared.load number).page number).nexterror)
    (noneSent : page.sent = []) :
    Mirrors past (((shared.load number).putPage number page).store number)
      { pager with pagemap := Function.update pager.pagemap number page.entry } := by
  have isSet := (mirrors.setLocks (shared.pageKey number) page.locks).outstandingLocks
  have isKept : pager.setLocks (shared.pageKey number) page.locks = pager := by
    have isLocks : page.locks = shared.outstandingLocks.find? (shared.pageKey number) := sameLocks
    rw [isLocks, mirrors.outstandingLocks]
    exact pager.setLocks_find? _
  have errorsKept : Function.update shared.nexterror (shared.offsetOf number) page.nexterror =
      shared.nexterror := by
    have isErrors : page.nexterror = shared.nexterror (shared.offsetOf number) := sameErrors
    rw [isErrors]
    exact Function.update_eq_self ..
  refine { mirrors with nexterror := ?_, outstandingLocks := ?_, pagemap := ?_, sent := ?_ }
  · intro other hasOffset
    exact (congrFun errorsKept _).trans (mirrors.nexterror other hasOffset)
  · rw [isKept] at isSet
    exact isSet
  · intro other
    have isRead : ((shared.load number).putPage number page).read other = shared.read other :=
      shared.pagemap.read_load number other
    rw [Works.read_store, isRead, mirrors.pagemap other]
    exact (Function.update_apply ..).symm
  · have isSent : (((shared.load number).putPage number page).store number).sent =
      shared.sent ++ page.sent.map (shared.pageEvent number) := rfl
    rw [isSent, noneSent, List.map_nil, List.append_nil]
    exact mirrors.sent

theorem dropPass_related (mirrors : Mirrors past shared pager) (control : MachPort) (number : ℕ) :
    Mirrors past (shared.dropPass control number) (pager.dropEntry control number) := by
  have isEntry : shared.read number = (pager.page number).entry := mirrors.pagemap number
  have isLoaded : ((shared.load number).page number).entry = (pager.page number).entry :=
    (Interned.tmp_load _ _).trans isEntry
  have left : Mirrors past
      (if control ∈ (shared.read number).accesslist then
        ((shared.load number).putPage number
          (((shared.load number).page number).removeFromAccesslist control
            |>.setWriteAccessGranted false)).store number
      else shared) (pager.dropEntry control number) := by
    rw [isEntry, Pager.dropEntry, Page.dropClient]
    split_ifs with isListed
    · have stored := mirrors.store (((shared.load number).page number).removeFromAccesslist control
        |>.setWriteAccessGranted false) rfl rfl rfl
      have sameEntry : (((shared.load number).page number).removeFromAccesslist control
          |>.setWriteAccessGranted false).entry =
            ((pager.page number).removeFromAccesslist control
              |>.setWriteAccessGranted false).entry :=
        congrArg (fun entry : PagemapEntry =>
          { entry with
            accesslist := entry.accesslist.erase control
            writeAccessGranted := false }) isLoaded
      rw [← sameEntry]
      exact stored
    · have isSame : Function.update pager.pagemap number (pager.page number).entry = pager.pagemap :=
        Function.update_eq_self ..
      rw [isSame]
      exact mirrors
  rw [SharedPager.dropPass]
  dsimp only
  generalize (if control ∈ (shared.read number).accesslist then _ else shared) = next at left ⊢
  split_ifs
  · exact Works.load left number
  · exact left

theorem dropClient_entry (page : Page) (control : MachPort) :
    (page.dropClient control).entry =
      if control ∈ page.entry.accesslist then
        { page.entry with
          accesslist := page.entry.accesslist.erase control
          writeAccessGranted := false }
      else page.entry := by
  unfold Page.dropClient
  split_ifs <;> rfl

/-- A client that has been dropped is not dropped again. -/
theorem dropClient_again {page again : Page} {control : MachPort}
    (sameEntry : again.entry = (page.dropClient control).entry) :
    (again.dropClient control).entry = (page.dropClient control).entry := by
  have isDropped : control ∉ (page.dropClient control).entry.accesslist := by
    rw [dropClient_entry]
    split_ifs with isListed
    · exact fun isListed => (OrdSet.mem_erase.mp isListed).2 rfl
    · exact isListed
  rw [← sameEntry] at isDropped
  rw [dropClient_entry, if_neg isDropped, sameEntry]

/-- The loop of `drop_client` over the pagemap -/
theorem foldl_dropEntry (control : MachPort) (numbers : List ℕ) (pager : Pager) :
    numbers.foldl (Pager.dropEntry control) pager =
      { pager with
        pagemap := fun number =>
          if number ∈ numbers then ((pager.page number).dropClient control).entry
          else pager.pagemap number } := by
  induction numbers generalizing pager with
  | nil => rfl
  | cons head rest ih =>
      rw [List.foldl_cons, ih]
      refine congrArg (fun pagemap => { pager with pagemap := pagemap }) (funext fun number => ?_)
      have isHead : (pager.dropEntry control head).pagemap number =
          if number = head then ((pager.page head).dropClient control).entry
          else pager.pagemap number :=
        Function.update_apply ..
      by_cases same : number = head
      · subst same
        rw [if_pos rfl] at isHead
        rw [if_pos List.mem_cons_self, isHead]
        split_ifs
        · exact dropClient_again isHead
        · rfl
      · rw [if_neg same] at isHead
        have sameEntry : (((pager.dropEntry control head).page number).dropClient control).entry =
            ((pager.page number).dropClient control).entry := by
          have isEntry : ((pager.dropEntry control head).page number).entry =
            (pager.page number).entry := isHead
          rw [dropClient_entry, dropClient_entry, isEntry]
        rw [sameEntry, isHead]
        simp [same]

/-- `drop_client` after the lock loop -/
def Pager.dropPages (control : MachPort) (pager : Pager) : Pager :=
  { pager with
    pagemap := fun number => ((pager.page number).dropClient control).entry
    sent := pager.sent ++
      (pager.outstandingChangeRequests.toList.filter (·.client = control)).map
        fun request => .changeCompleted request.reply
    clients := pager.clients.erase control }

theorem dropPages_related (mirrors : Mirrors past shared pager) (control : MachPort) :
    Mirrors past (shared.dropPages control) (pager.dropPages control) := by
  have passed : Mirrors past
      ((List.range (Pagemap.size shared.pagemap)).foldl (SharedPager.dropPass control) shared)
      ((List.range (Pagemap.size shared.pagemap)).foldl (Pager.dropEntry control) pager) := by
    apply Lockstep.foldl
    · exact fun related => dropPass_related related control _
    · exact mirrors
  rw [foldl_dropEntry] at passed
  unfold SharedPager.dropPages Pager.dropPages
  dsimp only
  generalize (List.range (Pagemap.size shared.pagemap)).foldl (SharedPager.dropPass control) shared =
    dropped at passed ⊢
  refine { passed with clients := ?_, pagemap := ?_, sent := ?_ }
  · exact congrArg (OrdSet.erase control) passed.clients
  · intro number
    refine (passed.pagemap number).trans ?_
    dsimp only
    split_ifs with isInside
    · rfl
    · -- there is no entry for the page, and none is made
      rw [List.mem_range, not_lt] at isInside
      have isRead : shared.read number = {} := Interned.read_of_length_le _ _ isInside
      have isEmpty : (pager.page number).entry = {} := (mirrors.pagemap number).symm.trans isRead
      have isUnlisted : control ∉ ({} : PagemapEntry).accesslist := OrdSet.not_mem_empty control
      rw [dropClient_entry, isEmpty, if_neg isUnlisted]
      exact isEmpty
  · have sent : dropped.sent = past ++ pager.sent := passed.sent
    have sameRequests : dropped.outstandingChangeRequests = pager.outstandingChangeRequests :=
      passed.outstandingChangeRequests
    rw [sent, sameRequests, List.append_assoc]

theorem dropLocks_cons {key : LockKey} {rest : List LockKey}
    {locks : OrdMap MachPort OutstandingClientLock}
    (found : shared.outstandingLocks.find? key = some locks) :
    SharedPager.dropLocks control (key :: rest) shared =
      if ((locks.find? control).map (·.internalLockOutstanding)).getD false then
        ((shared.storeLocks key (locks.erase control)).internalLockCompleted control
          (ofLex key).1 (ofLex key).2 (some (control, rest.head?))).bind
            (unlessReleased (SharedPager.dropLocks control rest))
      else SharedPager.dropLocks control rest (shared.storeLocks key (locks.erase control)) := by
  rw [SharedPager.dropLocks, found, Option.bind_some]
  refine if_congr Iff.rfl (congrArg (Option.bind _) (funext fun outcome => ?_)) rfl
  rcases outcome with ⟨_, _ | _⟩ <;> rfl

/-- `drop_client` from its lock loop on -/
theorem dropLocks_ends {keys : List LockKey} (mirrors : Mirrors past shared pager)
    (noInternal : pager.NoInternalElsewhere) (inRange : pager.RevokesInRange)
    (isSuffix : keys <:+ pager.outstandingLocks.keys) :
    EndsAs results past (SharedPager.dropLocks control keys shared)
      ((Loop.forEach (fun key pager => Pager.dropLocks pager control key results) keys pager).map
        (Pager.dropPages control)) := by
  induction keys generalizing shared pager with
  | nil => exact .done (dropPages_related mirrors control)
  | cons key rest ih =>
      have later : ∀ {next : Pager}, pager.dropLocks control key results = some next →
          next.outstandingLocks.keys.filter (key < ·) = rest := by
        intro next done
        rw [OrdMap.filter_keys_eq fun other different =>
          Pager.find?_dropLocks noInternal inRange done different]
        exact OrdMap.filter_keys_of_suffix isSuffix
      -- the iterator stands on the next key, whatever has become of the record of this one
      have resumes : ∀ {shared' : SharedPager Interned} {next : Pager}, Mirrors past shared' next →
          pager.dropLocks control key results = some next →
            shared'.resumeDrop (some (control, rest.head?)) =
              SharedPager.dropLocks control rest shared' := by
        intro shared' next related done
        have isLater := later done
        cases rest with
        | nil => rfl
        | cons head rest =>
            have isKey : head ∈ next.outstandingLocks.keys :=
              (OrdMap.suffix_keys isLater).mem List.mem_cons_self
            rw [List.head?_cons, SharedPager.resumeDrop, related.outstandingLocks, if_pos isKey,
              OrdMap.dropWhile_keys isLater]
      have ends : ∀ {shared' : SharedPager Interned} {next : Pager}, Mirrors past shared' next →
          pager.dropLocks control key results = some next →
            EndsAs results past (SharedPager.dropLocks control rest shared')
              ((Loop.forEach (fun key pager => Pager.dropLocks pager control key results) rest
                next).map (Pager.dropPages control)) := by
        intro shared' next related done
        exact ih related (Pager.dropLocks_view noInternal done).2.1
          (Pager.flushesInRange_dropLocks noInternal inRange done)
          (OrdMap.suffix_keys (later done))
      have isKey := isSuffix.mem List.mem_cons_self
      rw [OrdMap.mem_keys_iff, Option.isSome_iff_exists] at isKey
      rcases isKey with ⟨locks, found⟩
      have stored := mirrors.storeLocks key (locks.erase control)
      have isStep : pager.dropLocks control key results =
          if ((locks.find? control).map (·.internalLockOutstanding)).getD false then
            (pager.storeLocks key (locks.erase control)).internalLockCompleted control
              (ofLex key).1 (ofLex key).2 results
          else some (pager.storeLocks key (locks.erase control)) := by
        rw [Pager.dropLocks, found]
      rw [dropLocks_cons (mirrors.outstandingLocks ▸ found), Loop.forEach]
      by_cases required : ((locks.find? control).map (·.internalLockOutstanding)).getD false = true
      · rw [if_pos required] at isStep
        rw [if_pos required, isStep, Option.map_bind]
        rcases Pager.exists_internal required with ⟨record, isRecord, isInternal⟩
        have within := (Pager.key_of_internal noInternal inRange found isRecord isInternal).2
        exact internalLockCompleted_ends stored within
          (fun related done => resumes related (isStep.trans done))
          fun related done => ends related (isStep.trans done)
      · rw [if_neg required] at isStep
        rw [if_neg required, isStep, Option.bind_some]
        exact ends stored isStep

theorem dropClient_ends (mirrors : Mirrors past shared pager) (settled : pager.Settled) :
    EndsAs results past (shared.dropClient control) (pager.dropClient control results) := by
  rw [SharedPager.dropClient, mirrors.outstandingLocks]
  exact dropLocks_ends mirrors settled.noInternalElsewhere settled.inRange List.suffix_rfl

theorem signal_related {shouldReturn : MemoryObjectReturn} {flush sync : Bool}
    (mirrors : Mirrors past shared pager) :
    Mirrors past (shared.signal offset length shouldReturn flush sync client)
      (pager.signal offset length shouldReturn flush sync client) := by
  have emitted := mirrors.emit
    (.lockRequest client offset length shouldReturn flush vmProtNoChange sync)
  unfold SharedPager.signal Pager.signal
  dsimp only
  split_ifs
  · unfold SharedPager.countLock Pager.countLock
    rw [emitted.outstandingLocks]
    exact emitted.setLocks _ _
  · exact emitted

theorem lockObjectClients_related {shouldReturn : MemoryObjectReturn} {flush : Bool}
    (mirrors : Mirrors past shared pager) (offset length : ℕ) :
    Mirrors past ((shared.pagesOf offset length).foldl
        (SharedPager.lockObjectPass (!flush && shouldReturn ≠ .all)) (shared, ∅)).1 pager ∧
      ((shared.pagesOf offset length).foldl
        (SharedPager.lockObjectPass (!flush && shouldReturn ≠ .all)) (shared, ∅)).2 =
          pager.lockObjectClients offset length shouldReturn flush := by
  rw [mirrors.pagesOf, Pager.lockObjectClients]
  refine @Lockstep.foldl _ _ _
    (fun (state : SharedPager Interned × OrdSet MachPort) (clients : OrdSet MachPort) =>
      Mirrors past state.1 pager ∧ state.2 = clients) _ _ ?_ _ _ _ ⟨mirrors, rfl⟩
  intro number state clients related
  rcases state with ⟨shared, clients'⟩
  rcases related with ⟨related, rfl⟩
  have touched := related.touch number
  refine ⟨touched, ?_⟩
  have isEntry : (shared.touch number).read number = pager.pagemap number := touched.pagemap number
  unfold SharedPager.lockObjectPass
  dsimp only
  rw [isEntry]

/-- `lock_object`, whose waits end at once where nothing is being written -/
theorem lockObject_ends {shouldReturn : MemoryObjectReturn} {flush sync : Bool}
    (mirrors : Mirrors past shared pager) (settled : pager.Settled) :
    EndsAs results past (some (shared.lockObject offset length shouldReturn flush sync))
      (some (pager.lockObject offset length shouldReturn flush sync)) := by
  have looked := @lockObjectClients_related _ _ _ shouldReturn flush mirrors offset length
  unfold SharedPager.lockObject Pager.lockObject
  generalize (shared.pagesOf offset length).foldl
    (SharedPager.lockObjectPass (!flush && shouldReturn ≠ .all)) (shared, ∅) = state at looked ⊢
  rcases state with ⟨touched, clients⟩
  rcases looked with ⟨looked, rfl⟩
  dsimp only at looked ⊢
  generalize (pager.lockObjectClients offset length shouldReturn flush) = clients
  have signalled : Mirrors past
      (clients.toList.foldl (SharedPager.signal offset length shouldReturn flush sync) touched)
      (clients.toList.foldl (Pager.signal offset length shouldReturn flush sync) pager) := by
    apply Lockstep.foldl
    · exact signal_related
    · exact looked
  have noneQueued : (clients.toList.foldl (Pager.signal offset length shouldReturn flush sync)
      pager).writewait = [] :=
    (Pager.foldl_signal_view settled.noInternalElsewhere offset length shouldReturn flush sync
      clients.toList).1.writewait.trans settled.writewait
  by_cases waits : (sync && !clients.isEmpty) = true
  · rw [if_pos waits]
    refine .goesOn rfl rfl signalled (List.forall_mem_nil _) fun locked isLocked => ?_
    rw [List.map_nil, Pager.emitAll_nil] at isLocked
    have noneWaits : locked.waitsForWrite offset length = false := by
      rw [SharedPager.waitsForWrite, isLocked.writewait, noneQueued]
      rfl
    rw [SharedPager.reenter, noneWaits]
    exact .done isLocked
  · rw [if_neg waits]
    exact .done signalled

end Records

/-- Every handler ends as `Pager.handle` says, unless it is interrupted. -/
theorem enter_ends {results : Callbacks} {past : List Event} {shared : SharedPager Interned}
    {pager : Pager} {input : Input} {stale : ℕ → Bool}
    (mirrors : Mirrors past shared { pager with sent := [] }) (settled : pager.Settled)
    (fits : input.Fits) (isStale : ∀ number, stale number = (results number).staleNotify) :
    EndsAs results past (shared.enter stale input) (pager.handle (input, results)) := by
  have started : ({ pager with sent := [] } : Pager).Settled :=
    ⟨⟨settled.writewait, settled.noInternalElsewhere⟩, settled.inRange⟩
  cases input with
  | objectInit control pagesize => exact objectInit_ends mirrors pagesize
  | dataRequest client offset length access => exact dataRequest_ends mirrors access fits
  | dataUnlock client offset length => exact dataUnlock_ends mirrors fits
  | dataReturn client offset data length dirty kernelCopy =>
      exact dataReturn_ends mirrors settled.writewait fits isStale
  | lockCompleted client offset length => exact lockCompleted_ends mirrors started
  | objectTerminate control => exact dropClient_ends mirrors started
  | deadName control => exact dropClient_ends mirrors started
  | lockObject offset length shouldReturn flush sync => exact lockObject_ends mirrors started
  | shutdown => exact .done { mirrors with terminating := rfl }

end Hurd.Libpager
