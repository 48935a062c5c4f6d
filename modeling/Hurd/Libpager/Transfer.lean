import Hurd.Libpager.Exclusive
import Hurd.Libpager.Orderly

/-!
# How access to a page changes hands

What a handler gives away is a page, write access to a page that the client has, or the
contents that it has written to the store (`Gift`).  `Page.Transfer` says what a handler can
give and what becomes of `WRITE_ACCESS_GRANTED`: it changes only when the page goes to all
the clients that are left on ACCESSLIST, or when nobody is left.  A dirty `data_return` that
hands the page off twice is the exception.
-/

namespace Hurd.Libpager

/-- What a handler gives away. -/
inductive Gift
  | supply (client : MachPort) (data : ℕ) (write : Bool)
  | grant (client : MachPort)
  | write (data : ℕ)
deriving DecidableEq

def PageEvent.gift? : PageEvent → Option Gift
  | .dataSupply _ client data _ lockValue _ => some (.supply client data (lockValue = 0))
  | .dataError .. => none
  | .lockRequest client _ shouldFlush _ _ => if shouldFlush then none else some (.grant client)
  | .readPage => none
  | .unlockPage => none
  | .writePage data => some (.write data)
  | .notifyEvict => none

namespace Page

def gifts (page : Page) : List Gift :=
  page.sent.filterMap PageEvent.gift?

section Gifts

variable (page : Page)

theorem gifts_send (event : PageEvent) :
    (page.send event).gifts = page.gifts ++ event.gift?.toList := by
  cases gift : event.gift? <;> simp [gifts, send, gift]

@[simp]
theorem flushEach_gifts (clients : List MachPort) :
    (page.flushEach clients).gifts = page.gifts := by
  simp [gifts, flushEach_sent, PageEvent.gift?, List.filterMap_map, Function.comp_def]

theorem supplyReaders_gifts (data : ℕ) (deallocate : Bool) (first : WaitlistClient)
    (rest : List WaitlistClient) :
    (supplyReaders data deallocate first rest page).gifts =
      page.gifts ++ (waitingClients (first :: moreReaders rest)).map
        fun client => .supply client data false := by
  induction rest generalizing first page with
  | nil =>
      simp [supplyReaders, supply, moveToAccesslist, send, gifts, waitingClients, moreReaders,
        PageEvent.gift?, vmProtWrite]
  | cons next rest ih =>
      simp only [supplyReaders, moreReaders, List.takeWhile_cons]
      by_cases write : next.writeAccessRequested = true
      · simp [write, supply, moveToAccesslist, send, gifts, waitingClients, PageEvent.gift?,
          vmProtWrite]
      · have step := ih ((page.moveToAccesslist first.client (next :: rest)).supply first.client
          data false vmProtWrite) next
        simp only [write, Bool.not_false, if_true, if_false, Bool.false_eq_true]
        rw [step]
        simp [supply, moveToAccesslist, send, gifts, waitingClients, moreReaders,
          PageEvent.gift?, vmProtWrite]

theorem serveFirst_gifts (data : ℕ) (allowWriteAccess deallocate : Bool)
    (first : WaitlistClient) (rest : List WaitlistClient) :
    (page.serveFirst data allowWriteAccess deallocate first rest).gifts =
      page.gifts ++ (servedBatch allowWriteAccess first rest).map fun client =>
        .supply client data (allowWriteAccess && first.writeAccessRequested) := by
  unfold serveFirst servedBatch
  split_ifs with write
  · simp [write, supply, moveToAccesslist, send, setWriteAccessGranted, gifts, PageEvent.gift?]
  · rw [Bool.eq_false_iff.mpr write]
    exact page.supplyReaders_gifts data deallocate first rest

@[simp]
theorem flushForWaiting_gifts : page.flushForWaiting.gifts = page.gifts := by
  unfold flushForWaiting
  split_ifs
  · rfl
  · exact page.flushEach_gifts _

@[simp]
theorem sendErrorToWaitlist_gifts : page.sendErrorToWaitlist.gifts = page.gifts := by
  have sent : ∀ (waitlist : List WaitlistClient) (page : Page),
      (waitlist.foldl sendErrorTo page).gifts = page.gifts := by
    intro waitlist
    induction waitlist with
    | nil => exact fun _ => rfl
    | cons waiting rest ih =>
        intro page
        rw [List.foldl_cons, ih]
        unfold sendErrorTo
        split_ifs <;> simp [gifts, internalFlushRequest, send, PageEvent.gift?]
  exact sent page.entry.waitlist page

theorem written_gifts (data : ℕ) (error : KernReturn) :
    (page.written data error).gifts = page.gifts ++ [.write data] := by
  have told := page.gifts_send (.writePage data)
  unfold written recordWrite
  split_ifs
  · exact told
  · exact told

theorem Notified.gifts {page next : Page} (notified : Notified page next) :
    next.gifts = page.gifts := by
  rcases notified with ⟨count, rfl⟩
  simp [Page.gifts, PageEvent.gift?]

end Gifts

/--
What a handler gives away from a page, besides what it has `written`.  `data` is what it
supplies, and `again` says that it has handed the page off twice.
-/
inductive Transfer (page : Page) (data : ℕ) (written : List Gift) (again : Prop) (next : Page) :
    Prop
  | keeps (gifts : next.gifts = page.gifts ++ written)
      (granted : next.entry.writeAccessGranted = page.entry.writeAccessGranted)
  | clears (gifts : next.gifts = page.gifts ++ written)
      (nobody : ∀ client, client ∉ next.entry.accesslist)
  | serves (batch : List MachPort) (write : Bool)
      (gifts : next.gifts =
        page.gifts ++ batch.map (fun client => .supply client data write) ++ written)
      (granted : next.entry.writeAccessGranted = write)
      (holders : page.entry.writeAccessGranted = false ∧ write = false ∨
        ∀ client ∈ next.entry.accesslist, client ∈ batch)
  | grants (client : MachPort) (gifts : next.gifts = page.gifts ++ [.grant client] ++ written)
      (granted : next.entry.writeAccessGranted = true)
      (holders : ∀ other ∈ next.entry.accesslist, other = client)
  | twice (again : again) (notGranted : next.entry.writeAccessGranted = false)

variable {page base next : Page} {client : MachPort} {results : PageCallbacks} {data : ℕ}
  {written : List Gift} {again : Prop}

/-- The handler has done nothing to the page before that matters here. -/
theorem Transfer.of_same (transfer : Transfer base data written again next)
    (gifts : base.gifts = page.gifts)
    (granted : base.entry.writeAccessGranted = page.entry.writeAccessGranted) :
    Transfer page data written again next := by
  cases transfer with
  | keeps given same => exact .keeps (by rw [given, gifts]) (same.trans granted)
  | clears given nobody => exact .clears (by rw [given, gifts]) nobody
  | serves batch write given same holders =>
      exact .serves batch write (by rw [given, gifts]) same (by rwa [granted] at holders)
  | grants client given same holders => exact .grants client (by rw [given, gifts]) same holders
  | twice again notGranted => exact .twice again notGranted

theorem Transfer.imp {other : Prop} (implies : again → other)
    (transfer : Transfer page data written again next) :
    Transfer page data written other next := by
  cases transfer with
  | keeps gifts granted => exact .keeps gifts granted
  | clears gifts nobody => exact .clears gifts nobody
  | serves batch write gifts granted holders => exact .serves batch write gifts granted holders
  | grants client gifts granted holders => exact .grants client gifts granted holders
  | twice again notGranted => exact .twice (implies again) notGranted

/-- The contents of the page are written at the end. -/
theorem Transfer.andWrite (transfer : Transfer page data [] again base)
    (gifts : next.gifts = base.gifts ++ written)
    (accesslist : next.entry.accesslist = base.entry.accesslist)
    (granted : next.entry.writeAccessGranted = base.entry.writeAccessGranted) :
    Transfer page data written again next := by
  cases transfer with
  | keeps given same => exact .keeps (by simpa [given] using gifts) (granted.trans same)
  | clears given nobody => exact .clears (by simpa [given] using gifts) (by rwa [accesslist])
  | serves batch write given same holders =>
      exact .serves batch write (by simpa [given] using gifts) (granted.trans same)
        (by rwa [accesslist])
  | grants client given same holders =>
      exact .grants client (by simpa [given] using gifts) (granted.trans same)
        (by rwa [accesslist])
  | twice again notGranted => exact .twice again (granted.trans notGranted)

/-- Nobody holds the page, or readers do and a reader waits for it. -/
def FreeForFirst (page : Page) (granted : Bool) : Prop :=
  (∀ client, client ∉ page.entry.accesslist) ∨
    granted = false ∧ ∀ first ∈ page.entry.waitlist.head?, first.writeAccessRequested = false

theorem transfer_serviceWaitlist {allowWriteAccess deallocate : Bool}
    (served : base.serviceWaitlist data allowWriteAccess deallocate = some next)
    (running : base.terminating = false) (gifts : base.gifts = page.gifts)
    (free : base.FreeForFirst page.entry.writeAccessGranted) :
    Transfer page data [] again next ∧ next.entry.invalid = base.entry.invalid := by
  rcases serviceWaitlist_cases served with ⟨ended, _⟩ | ⟨first, rest, _, waiting, rfl⟩
  · rw [ended] at running
    cases running
  rcases serveFirst_frame data deallocate first rest base allowWriteAccess with
    ⟨-, -, -, sameInvalid, -⟩
  rw [flushForWaiting_entry]
  refine ⟨.serves (servedBatch allowWriteAccess first rest)
    (allowWriteAccess && first.writeAccessRequested) ?_ ?_ ?_, sameInvalid⟩
  · simp [serveFirst_gifts, gifts]
  · rw [flushForWaiting_entry, serveFirst_writeAccessGranted]
  · rcases free with nobody | ⟨notGranted, reader⟩
    · right
      intro client listed
      rw [flushForWaiting_entry, mem_serveFirst_accesslist] at listed
      exact listed.resolve_left (nobody client)
    · left
      rw [reader first (by simp [waiting]), Bool.and_false]
      exact ⟨notGranted, rfl⟩

/-- A page in gives the page to those who wait, or is refused. -/
theorem transfer_finishPagein (finished : base.finishPagein results.read = some next)
    (running : base.terminating = false) (gifts : base.gifts = page.gifts)
    (kept : base.entry.writeAccessGranted = page.entry.writeAccessGranted ∨
      ∀ client, client ∉ base.entry.accesslist)
    (free : base.FreeForFirst page.entry.writeAccessGranted) :
    Transfer page results.read.buffer [] again next ∧
      next.entry.invalid = base.entry.invalid := by
  rcases finishPagein_cases finished with ⟨succeeded, served⟩ | ⟨_, rfl⟩
  · have result : Transfer page results.read.buffer [] again next ∧ _ :=
      transfer_serviceWaitlist served running gifts free
    exact result
  · have noGifts : (base.setError results.read.error).sendErrorToWaitlist.gifts =
        page.gifts ++ [] := by
      rw [sendErrorToWaitlist_gifts, List.append_nil]
      exact gifts
    rcases kept with same | nobody
    · refine ⟨.keeps noGifts ?_, by rw [sendErrorToWaitlist_entry]; rfl⟩
      rw [sendErrorToWaitlist_entry]
      exact same
    · refine ⟨.clears noGifts ?_, by rw [sendErrorToWaitlist_entry]; rfl⟩
      rw [sendErrorToWaitlist_entry]
      exact nobody

/-- `internal_lock_completed`, when nobody who waits holds the page. -/
theorem transfer_internalLockCompleted (running : page.terminating = false)
    (disjoint : ∀ waiting ∈ waitingClients page.entry.waitlist,
      waiting ∉ page.entry.accesslist.erase client)
    (completed : page.internalLockCompleted client results = some next) :
    Transfer page results.read.buffer [] again next ∧
      next.entry.invalid = page.entry.invalid := by
  cases internalLockCompleted_cases completed with
  | terminating ended =>
      rw [ended] at running
      cases running
  | idle _ _ _ nextEq =>
      subst nextEq
      exact ⟨.keeps (List.append_nil _).symm rfl, rfl⟩
  | others _ _ _ _ _ nextEq =>
      subst nextEq
      exact ⟨.keeps (List.append_nil _).symm rfl, rfl⟩
  | refuse _ _ _ _ _ _ nextEq =>
      subst nextEq
      refine ⟨.keeps ?_ ?_, ?_⟩
      · rw [sendErrorToWaitlist_gifts, List.append_nil]
        rfl
      · rw [sendErrorToWaitlist_entry]
        rfl
      · rw [sendErrorToWaitlist_entry]
        rfl
  | pagein _ _ _ _ lastOne _ finished =>
      have gifts : ((page.removeFromAccesslist client).send .readPage).gifts = page.gifts :=
        (gifts_send _ _).trans (List.append_nil _)
      have result : Transfer page results.read.buffer [] again next ∧ _ :=
        transfer_finishPagein finished running gifts (Or.inl rfl)
          (Or.inl (OrdSet.isEmpty_iff.mp lastOne))
      exact result
  | unlock _ _ _ _ first rest waiting firstListed =>
      apply absurd firstListed
      apply disjoint
      simp [waiting, waitingClients]

/-- A client that completes its last lock stays on ACCESSLIST only when nobody waits. -/
theorem internalLockCompleted_listed (orderly : page.Orderly)
    (running : page.terminating = false)
    (completed : page.internalLockCompleted client results = some next)
    (stillListed : client ∈ next.entry.accesslist) : next = page := by
  have gone : client ∉ page.entry.accesslist.erase client :=
    fun listed => (OrdSet.mem_erase.mp listed).2 rfl
  cases internalLockCompleted_cases completed with
  | terminating ended =>
      rw [ended] at running
      cases running
  | idle _ _ _ nextEq => exact nextEq
  | others _ _ _ _ _ nextEq =>
      subst nextEq
      exact absurd stillListed gone
  | refuse _ _ _ _ _ _ nextEq =>
      subst nextEq
      rw [sendErrorToWaitlist_entry] at stillListed
      exact absurd stillListed gone
  | pagein _ _ listed _ _ _ finished =>
      rcases finishPagein_cases finished with ⟨_, served⟩ | ⟨_, rfl⟩
      · rcases serviceWaitlist_cases served with ⟨ended, _⟩ | ⟨first, rest, _, waiting, rfl⟩
        · rw [show page.terminating = true from ended] at running
          cases running
        rw [flushForWaiting_entry, mem_serveFirst_accesslist] at stillListed
        rcases stillListed with before | now
        · exact absurd before gone
        · have waits : client ∈ waitingClients page.entry.waitlist := by
            rw [show page.entry.waitlist = first :: rest from waiting,
              ← servedBatch_append_leftWaiting (!results.read.writeLock)]
            exact List.mem_append_left _ now
          exact absurd listed (orderly.disjoint client waits)
      · rw [sendErrorToWaitlist_entry] at stillListed
        exact absurd stillListed gone
  | unlock _ _ _ _ first rest waiting firstListed =>
      apply absurd (OrdSet.mem_erase.mp firstListed).1
      apply orderly.disjoint
      simp [waiting, waitingClients]

/-- A client with write access leaves nobody behind. -/
theorem Exclusive.nobody_left (exclusive : page.Exclusive)
    (granted : page.entry.writeAccessGranted = true) (listed : client ∈ page.entry.accesslist)
    (other : MachPort) : other ∉ page.entry.accesslist.erase client := by
  intro left
  rcases OrdSet.mem_erase.mp left with ⟨otherListed, different⟩
  exact different (OrdSet.size_le_one_iff.mp (exclusive.granted granted) other otherListed client
    listed)

theorem transfer_dataRequest {write : Bool} (notPagingout : page.entry.pagingout = false)
    (running : page.terminating = false) (orderly : page.Orderly) (exclusive : page.Exclusive)
    (requested : page.dataRequest client write results = some next) :
    Transfer page results.read.buffer [] again next ∧
      next.entry.invalid = page.entry.invalid := by
  -- a client that asks again gives up write access, and then nobody has the page
  have left : (page.leaveForRequest client).entry.writeAccessGranted =
        page.entry.writeAccessGranted ∨
      ∀ other, other ∉ (page.leaveForRequest client).entry.accesslist := by
    unfold leaveForRequest
    split_ifs with listed
    · cases granted : page.entry.writeAccessGranted with
      | false => exact Or.inl rfl
      | true => exact Or.inr (exclusive.nobody_left granted listed)
    · exact Or.inl rfl
  have leftFrame : (page.leaveForRequest client).gifts = page.gifts ∧
      (page.leaveForRequest client).terminating = page.terminating ∧
      (page.leaveForRequest client).entry.waitlist = page.entry.waitlist ∧
      (page.leaveForRequest client).entry.invalid = page.entry.invalid := by
    unfold leaveForRequest
    split_ifs <;> exact ⟨rfl, rfl, rfl, rfl⟩
  cases dataRequest_cases requested with
  | error found rest _ nextEq =>
      subst nextEq
      exact ⟨.keeps (page.gifts_send _) rfl, rfl⟩
  | held isPagingout =>
      rw [notPagingout] at isPagingout
      cases isPagingout
  | completed _ _ _ finished =>
      have disjoint : ∀ waiting ∈ waitingClients (page.addToWaitlist client write).entry.waitlist,
          waiting ∉ (page.addToWaitlist client write).entry.accesslist.erase client := by
        intro waiting waits listed
        rcases OrdSet.mem_erase.mp listed with ⟨stillListed, different⟩
        simp only [addToWaitlist, waitingClients, List.map_append, List.map_cons, List.map_nil,
          List.mem_append, List.mem_singleton] at waits
        exact orderly.disjoint waiting (waits.resolve_right different) stillListed
      rcases transfer_internalLockCompleted (by exact running) disjoint finished with
        ⟨transfer, sameInvalid⟩
      exact ⟨transfer.of_same rfl rfl, sameInvalid⟩
  | waits _ _ _ nextEq =>
      subst nextEq
      exact ⟨.keeps (List.append_nil _).symm rfl, rfl⟩
  | revokes _ _ contended nextEq =>
      subst nextEq
      refine ⟨.keeps ?_ ?_, ?_⟩
      · rw [flushEach_gifts, List.append_nil]
        exact leftFrame.1
      · rw [flushEach_entry]
        rcases left with same | nobody
        · exact same
        · rcases contended with granted | ⟨_, someLeft⟩
          · unfold leaveForRequest at granted ⊢
            split_ifs at granted ⊢ with listed
            · cases granted
            · rfl
          · rw [OrdSet.isEmpty_iff.mpr nobody] at someLeft
            cases someLeft
      · rw [flushEach_entry]
        exact leftFrame.2.2.2
  | pagein _ _ noneWaiting notGranted free finished =>
      have told : ((page.leaveForRequest client).tellInvalid client).gifts = page.gifts ∧
          ((page.leaveForRequest client).tellInvalid client).terminating = page.terminating ∧
          ((page.leaveForRequest client).tellInvalid client).entry =
            (page.leaveForRequest client).entry := by
        unfold tellInvalid
        split_ifs
        · refine ⟨?_, leftFrame.2.1, rfl⟩
          rw [gifts_send, leftFrame.1]
          exact List.append_nil _
        · exact ⟨leftFrame.1, leftFrame.2.1, rfl⟩
      rcases told with ⟨gifts, sameTerminating, entry⟩
      have sent : ((((page.leaveForRequest client).tellInvalid client).addToWaitlist client
          write).send .readPage).gifts = page.gifts := by
        rw [gifts_send]
        exact (List.append_nil _).trans gifts
      have waitlist : ((page.leaveForRequest client).tellInvalid client).entry.waitlist = [] := by
        rw [entry, leftFrame.2.2.1, noneWaiting]
      have result : Transfer page results.read.buffer [] again next ∧ _ :=
        transfer_finishPagein finished (sameTerminating.trans running) sent ?_ ?_
      · refine ⟨result.1, result.2.trans ?_⟩
        simp only [send, addToWaitlist, entry]
        exact leftFrame.2.2.2
      · simp only [send, addToWaitlist, entry]
        exact left
      · rcases left with same | nobody
        · cases wanted : write with
          | true =>
              left
              simp only [send, addToWaitlist, entry]
              exact OrdSet.isEmpty_iff.mp (free wanted)
          | false =>
              right
              refine ⟨same.symm.trans notGranted, ?_⟩
              simp [send, addToWaitlist, waitlist]
        · left
          simp only [send, addToWaitlist, entry]
          exact nobody

theorem transfer_dataUnlock {first : Bool} {others : List MachPort}
    (notQueued : ¬page.QueuesUnlock)
    (unlocked : page.dataUnlock client first others results = some next) :
    Transfer page data [] again next ∧ next.entry.invalid = page.entry.invalid := by
  cases dataUnlock_cases unlocked with
  | ignored _ _ nextEq =>
      subst nextEq
      rw [flushEach_entry]
      refine ⟨.keeps ?_ ?_, rfl⟩
      · rw [flushEach_gifts, List.append_nil]
      · rw [flushEach_entry]
  | queued _ _ readersWait waiting => exact absurd ⟨readersWait, Or.inl waiting⟩ notQueued
  | revokes _ _ noneWaiting shared =>
      apply absurd _ notQueued
      refine ⟨?_, Or.inr shared⟩
      simp [PagemapEntry.isAnyClientWaitingForWriteAccess, noneWaiting]
  | alone listed notGranted noneWaiting onlyOne finished =>
      have sent : (((page.addToWaitlist client true).flushEach
          (if first then others else [])).send .unlockPage).gifts = page.gifts := by
        rw [gifts_send, flushEach_gifts]
        exact List.append_nil _
      cases finalizeUnlock_cases finished with
      | granted waiting rest waits _ nextEq =>
          have isClient : waiting = ⟨client, true⟩ := by
            simp [send, addToWaitlist, noneWaiting] at waits
            exact waits.1.symm
          subst nextEq
          rw [flushEach_entry]
          refine ⟨.grants client ?_ ?_ ?_, ?_⟩
          · rw [flushEach_gifts, List.append_nil, ← sent, isClient]
            exact gifts_send _ _
          · rw [flushEach_entry]
            rfl
          · intro other otherListed
            rw [flushEach_entry] at otherListed
            simp only [setWriteAccessGranted, send, setWaitlist, flushEach_entry,
              addToWaitlist] at otherListed
            exact OrdSet.size_le_one_iff.mp onlyOne other otherListed client listed
          · simp only [setWriteAccessGranted, send, setWaitlist, flushEach_entry, addToWaitlist]
      | failed waiting rest _ _ nextEq =>
          subst nextEq
          refine ⟨.keeps ?_ ?_, ?_⟩
          · rw [List.append_nil, ← sent]
            exact flushEach_gifts _ _
          · simp only [flushEach_entry, setWaitlist, send, addToWaitlist]
          · simp only [flushEach_entry, setWaitlist, send, addToWaitlist]

/-- A dirty return that finds clients waiting after it has handed the page off once. -/
def HandsOffTwice (page : Page) (client : MachPort) : Prop :=
  page.waitingAfterReturn client ≠ []

theorem handedOff_waitlist (running : page.terminating = false)
    (handedOff : HandedOff page client data true false next ⟨false, false⟩) :
    next.entry.waitlist = page.waitingAfterReturn client := by
  rcases page.leaveForReturn_frame client with ⟨sameWaitlist, -, -, -, -, sameTerminating, -⟩
  cases handedOff with
  | keeps copyKept => cases copyKept
  | unlocks _ _ _ _ _ _ _ _ _ flagsEq => cases flagsEq
  | evicts _ clean => cases clean
  | serves _ nobodyLeft _ served =>
      rcases serviceWaitlist_cases served with ⟨ended, _⟩ | ⟨first, rest, _, waiting, rfl⟩
      · rw [sameTerminating, running] at ended
        cases ended
      · rw [sameWaitlist] at waiting
        rw [flushForWaiting_entry, serveFirst_waitlist, waitingAfterReturn, waiting]
        simp [nobodyLeft]
  | leaves _ nobodyServed nextEq =>
      subst nextEq
      rw [sameWaitlist, waitingAfterReturn]
      cases waiting : page.entry.waitlist with
      | nil => rfl
      | cons first rest =>
          have someLeft : (page.leaveForReturn client).entry.accesslist.isEmpty = false := by
            rw [← Bool.not_eq_true]
            intro empty
            rw [(nobodyServed empty).1] at waiting
            cases waiting
          simp [someLeft]

theorem transfer_handedOff {dirty : Bool} {flags : ReturnFlags} (orderly : page.Orderly)
    (running : page.terminating = false)
    (handedOff : HandedOff page client data dirty false next flags) :
    Transfer page data [] again next ∧
      (page.entry.invalid = false → next.entry.invalid = false) := by
  rcases page.leaveForReturn_frame client with ⟨-, sameGranted, -, -, -, sameTerminating, -⟩
  have leftFrame : (page.leaveForReturn client).gifts = page.gifts ∧
      (page.leaveForReturn client).entry.invalid = page.entry.invalid := by
    unfold leaveForReturn
    split_ifs <;> exact ⟨rfl, rfl⟩
  have noUnlock := (orderly.handedOff handedOff).2
  cases handedOff with
  | keeps copyKept => cases copyKept
  | serves _ nobodyLeft _ served =>
      have result : Transfer page data [] again next ∧ _ :=
        transfer_serviceWaitlist served (sameTerminating.trans running) leftFrame.1
          (Or.inl (OrdSet.isEmpty_iff.mp nobodyLeft))
      exact ⟨result.1, fun valid => result.2.trans (leftFrame.2.trans valid)⟩
  | unlocks _ _ _ _ _ _ _ _ _ flagsEq =>
      rw [flagsEq] at noUnlock
      cases noUnlock
  | evicts _ _ _ _ nextEq =>
      subst nextEq
      refine ⟨.keeps ?_ sameGranted, fun _ => rfl⟩
      rw [List.append_nil]
      exact leftFrame.1
  | leaves _ _ nextEq =>
      subst nextEq
      refine ⟨.keeps ?_ sameGranted, leftFrame.2.trans⟩
      rw [List.append_nil]
      exact leftFrame.1

/-- When a dirty return leaves clients waiting, others have the page. -/
theorem holder_handedOff (running : page.terminating = false)
    (handedOff : HandedOff page client data true false next ⟨false, false⟩)
    (waiting : next.entry.waitlist ≠ []) : ∃ holder, holder ∈ next.entry.accesslist := by
  rcases page.leaveForReturn_frame client with ⟨sameWaitlist, -, -, -, -, sameTerminating, -⟩
  cases handedOff with
  | keeps copyKept => cases copyKept
  | unlocks _ _ _ _ _ _ _ _ _ flagsEq => cases flagsEq
  | evicts _ clean => cases clean
  | serves _ _ _ served =>
      rcases serviceWaitlist_cases served with ⟨ended, _⟩ | ⟨first, rest, _, _, rfl⟩
      · rw [sameTerminating, running] at ended
        cases ended
      · refine ⟨first.client, ?_⟩
        rw [flushForWaiting_entry, mem_serveFirst_accesslist]
        right
        unfold servedBatch
        split_ifs <;> simp [waitingClients]
  | leaves _ nobodyServed nextEq =>
      subst nextEq
      rw [sameWaitlist] at waiting
      rw [← OrdSet.isEmpty_eq_false_iff, ← Bool.not_eq_true]
      exact fun empty => waiting (nobodyServed empty).1

theorem transfer_dataReturn {dirty any : Bool} (orderly : page.Orderly)
    (running : page.terminating = false)
    (noSecond : dirty = true → ¬page.ServesSecondWriter client)
    (returned : page.dataReturn client data dirty false any results = some next) :
    Transfer page data (if dirty then [.write data] else [])
        (dirty = true ∧ page.HandsOffTwice client) next ∧
      (results.write = kernSuccess → page.entry.invalid = false →
        next.entry.invalid = false) := by
  cases dataReturn_cases returned with
  | clean isClean handed flags handedOff _ notified =>
      subst isClean
      have result : Transfer page data [] (false = true ∧ page.HandsOffTwice client) handed ∧ _ :=
        transfer_handedOff orderly running handedOff
      refine ⟨result.1.andWrite ?_ ?_ ?_, fun _ wasValid => ?_⟩
      · rw [notified.gifts]
        exact (List.append_nil _).symm
      · rw [notified.entry]
      · rw [notified.entry]
      · rw [notified.entry]
        exact result.2 wasValid
  | unlocks _ _ _ _ handedOff unlocking =>
      have notUnlocking := (orderly.handedOff handedOff).2
      rw [unlocking] at notUnlocking
      cases notUnlocking
  | keeps _ copyKept => cases copyKept
  | serves isDirty _ handed handedOff waiting served =>
      subst isDirty
      rcases handed.written_frame data results.write with
        ⟨sameAccesslist, sameWaitlist, -, -, -, -, writtenConstants⟩
      rcases serviceWaitlist_cases served with ⟨ended, _⟩ | ⟨first, rest, _, waits, rfl⟩
      · rw [(handedOff.constants.trans writtenConstants).1, running] at ended
        cases ended
      rw [sameWaitlist] at waits
      -- whoever is served now shares the page with those who were served before
      have reader : first.writeAccessRequested = false := by
        by_contra writes
        have fits := firstFits_handedOff (noSecond rfl) running handedOff first (by simp [waits])
          (Bool.eq_true_of_not_eq_false writes)
        have handedOrderly := (orderly.handedOff handedOff).1
        have firstWaits : first.client ∈ waitingClients handed.entry.waitlist := by
          simp [waits, waitingClients]
        rcases holder_handedOff running handedOff waiting with ⟨holder, listed⟩
        rw [fits holder listed] at listed
        exact handedOrderly.disjoint first.client firstWaits listed
      refine ⟨.twice ⟨rfl, ?_⟩ ?_, ?_⟩
      · rw [HandsOffTwice, ← handedOff_waitlist running handedOff]
        exact waiting
      · rw [flushForWaiting_entry, serveFirst_writeAccessGranted, reader, Bool.and_false]
      · intro succeeded _
        rcases serveFirst_frame data false first rest (handed.written data results.write) true with
          ⟨-, -, -, sameInvalid, -⟩
        rw [flushForWaiting_entry, sameInvalid]
        simp [Page.written, recordWrite, succeeded, setInvalid, setPagingout]
  | evicts isDirty _ handed handedOff _ notified =>
      subst isDirty
      rcases transfer_handedOff orderly running handedOff with ⟨transfer, -⟩
      rcases handed.written_frame data results.write with ⟨sameAccesslist, -, sameGranted, -⟩
      refine ⟨transfer.andWrite ?_ ?_ ?_, fun _ _ => ?_⟩
      · rw [notified.gifts]
        exact handed.written_gifts data results.write
      · rw [notified.entry]
        exact sameAccesslist
      · rw [notified.entry]
        exact sameGranted
      · rw [notified.entry]
        rfl

theorem transfer_lockCompleted (orderly : page.Orderly) (running : page.terminating = false)
    (answered : page.lockCompleted client results = some next) :
    Transfer page results.read.buffer [] again next ∧
      next.entry.invalid = page.entry.invalid := by
  cases lockCompleted_cases answered with
  | counted _ _ _ nextEq =>
      subst nextEq
      exact ⟨.keeps (List.append_nil _).symm rfl, rfl⟩
  | external _ _ _ _ nextEq =>
      subst nextEq
      exact ⟨.keeps (List.append_nil _).symm rfl, rfl⟩
  | internal _ _ _ _ finished =>
      have disjoint : ∀ waiting ∈ waitingClients (page.forget client).entry.waitlist,
          waiting ∉ (page.forget client).entry.accesslist.erase client :=
        fun waiting waits listed =>
          orderly.disjoint waiting waits (OrdSet.mem_erase.mp listed).1
      rcases transfer_internalLockCompleted (by exact running) disjoint finished with
        ⟨transfer, sameInvalid⟩
      exact ⟨transfer.of_same rfl rfl, sameInvalid⟩

theorem transfer_dropClient (orderly : page.Orderly) (running : page.terminating = false)
    (exclusive : page.Exclusive)
    (handled : page.handle (.dropClient client) results = some next) :
    Transfer page results.read.buffer [] again next ∧
      next.entry.invalid = page.entry.invalid := by
  rcases Option.map_eq_some_iff.mp handled with ⟨dropped, dropDone, rfl⟩
  have forgotten := orderly.forget client
  have afterLocks : (Transfer page results.read.buffer [] again dropped ∧
        dropped.entry.invalid = page.entry.invalid) ∧
      (client ∈ dropped.entry.accesslist → dropped = page.forget client) := by
    rcases dropLocks_cases dropDone with ⟨_, _, _, finished⟩ | ⟨_, rfl⟩
    · have disjoint : ∀ waiting ∈ waitingClients (page.forget client).entry.waitlist,
          waiting ∉ (page.forget client).entry.accesslist.erase client :=
        fun waiting waits listed =>
          orderly.disjoint waiting waits (OrdSet.mem_erase.mp listed).1
      rcases transfer_internalLockCompleted (by exact running) disjoint finished with
        ⟨transfer, sameInvalid⟩
      exact ⟨⟨transfer.of_same rfl rfl, sameInvalid⟩,
        internalLockCompleted_listed forgotten running finished⟩
    · exact ⟨⟨.keeps (List.append_nil _).symm rfl, rfl⟩, fun _ => rfl⟩
  unfold Page.dropClient
  split_ifs with listed
  · -- the client has kept the page so far, so nothing has been given away
    have same := afterLocks.2 listed
    rw [same] at listed ⊢
    refine ⟨?_, rfl⟩
    cases granted : page.entry.writeAccessGranted with
    | false => exact .keeps (List.append_nil _).symm granted.symm
    | true =>
        exact .clears (List.append_nil _).symm (exclusive.nobody_left granted (by exact listed))
  · exact afterLocks.1

end Page

end Hurd.Libpager
