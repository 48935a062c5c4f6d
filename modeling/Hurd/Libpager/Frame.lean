import Hurd.Libpager.Page

/-!
# What the page routines leave alone

No routine reads the messages sent so far, and none changes whether the pager is
terminating or whether its pages are precious.  So the parts into which a handler is cut,
where it releases the pager lock, run one after the other as if there were no cut:
`Stable.andThen_eq`.
-/

namespace Hurd.Libpager

namespace Page

/-- The page with messages put in front of those it has sent. -/
def after (page : Page) (earlier : List PageEvent) : Page :=
  { page with sent := earlier ++ page.sent }

section Projections

variable (page : Page) (earlier : List PageEvent)

@[simp]
theorem after_terminating : (page.after earlier).terminating = page.terminating := rfl

@[simp]
theorem after_precious : (page.after earlier).precious = page.precious := rfl

/-- The earlier messages are no part of the pagemap entry. -/
@[simp]
theorem after_entry : (page.after earlier).entry = page.entry := rfl

@[simp]
theorem after_locks : (page.after earlier).locks = page.locks := rfl

@[simp]
theorem after_nexterror : (page.after earlier).nexterror = page.nexterror := rfl

/-- They are sent before those of the page. -/
@[simp]
theorem after_sent : (page.after earlier).sent = earlier ++ page.sent := rfl

@[simp]
theorem after_lock? (client : MachPort) :
    (page.after earlier).lock? client = page.lock? client := rfl

end Projections

/-- The two pages belong to one pager: no routine changes these constants. -/
def SameConstants (page next : Page) : Prop :=
  next.terminating = page.terminating ∧ next.precious = page.precious

theorem SameConstants.refl (page : Page) : SameConstants page page := ⟨rfl, rfl⟩

/-- Parts that follow one another leave the constants alone. -/
theorem SameConstants.trans {page middle next : Page} (first : SameConstants page middle)
    (second : SameConstants middle next) : SameConstants page next :=
  ⟨second.1.trans first.1, second.2.trans first.2⟩

/-- A later state of the page, with the messages of an earlier one in front. -/
def rebase (page next : Page) : Page :=
  { next with
    terminating := page.terminating
    precious := page.precious
    sent := page.sent ++ next.sent }

/-- Run a part of a handler as a loop over the pages of a message does: on its own. -/
def andThen (page : Page) (part : Page → Option Page) : Option Page :=
  (part { page with sent := [] }).map page.rebase

/-- `andThen` for a loop that also computes a flag for the page. -/
def andThenFlag {Flag : Type} (page : Page) (part : Page → Option (Page × Flag)) :
    Option (Page × Flag) :=
  (part { page with sent := [] }).map fun (next, flag) => (page.rebase next, flag)

/-- A part of a handler that reads no message sent before it and keeps the constants. -/
structure Stable (part : Page → Option Page) : Prop where
  after : ∀ page earlier, part (page.after earlier) = (part page).map (·.after earlier)
  constants : ∀ {page next}, part page = some next → SameConstants page next

/-- `Stable` for a part that also computes a flag. -/
structure StableFlag {Flag : Type} (part : Page → Option (Page × Flag)) : Prop where
  after : ∀ page earlier,
    part (page.after earlier) = (part page).map fun (next, flag) => (next.after earlier, flag)
  constants : ∀ {page next flag}, part page = some (next, flag) → SameConstants page next

/-- A page is one that has sent nothing, with its messages put in front. -/
theorem eq_after_sent (page : Page) : page = ({ page with sent := [] } : Page).after page.sent := by
  simp [Page.after]

/-- With the constants as they were, only the messages are put in front. -/
theorem rebase_eq_after {page next : Page}
    (same : SameConstants { page with sent := [] } next) :
    page.rebase next = next.after page.sent := by
  rcases same with ⟨terminating, precious⟩
  rcases next with ⟨_, _, _, _, _, _⟩
  cases terminating
  cases precious
  rfl

/-- A stable part does on its own what it does in the handler. -/
theorem Stable.andThen_eq {part : Page → Option Page} (stable : Stable part) (page : Page) :
    page.andThen part = part page := by
  conv_rhs => rw [page.eq_after_sent, stable.after]
  rw [andThen]
  cases entered : part { page with sent := [] } with
  | none => rfl
  | some next =>
      have same := rebase_eq_after (stable.constants entered)
      simp only [Option.map_some, same]

/-- A stable part computes the same flag on its own. -/
theorem StableFlag.andThenFlag_eq {Flag : Type} {part : Page → Option (Page × Flag)}
    (stable : StableFlag part) (page : Page) : page.andThenFlag part = part page := by
  conv_rhs => rw [page.eq_after_sent, stable.after]
  rw [andThenFlag]
  cases entered : part { page with sent := [] } with
  | none => rfl
  | some result =>
      have same := rebase_eq_after (stable.constants entered)
      simp only [Option.map_some, same]

section Routines

variable (page : Page) (earlier : List PageEvent)

/-- A message is sent after the earlier ones. -/
@[simp]
theorem send_after (event : PageEvent) :
    (page.after earlier).send event = (page.send event).after earlier := by
  simp [send, Page.after]

/-- A flush looks at the lock record and sends one message. -/
@[simp]
theorem internalFlushRequest_after (client : MachPort) :
    (page.after earlier).internalFlushRequest client =
      (page.internalFlushRequest client).after earlier := by
  simp [internalFlushRequest, Page.after, lock?]

/-- So do the flushes of all clients of a list. -/
@[simp]
theorem flushEach_after (clients : List MachPort) :
    (page.after earlier).flushEach clients = (page.flushEach clients).after earlier := by
  induction clients generalizing page with
  | nil => rfl
  | cons client rest ih =>
      have step := ih (page.internalFlushRequest client)
      rw [← internalFlushRequest_after] at step
      exact step

@[simp]
theorem moveToAccesslist_after (client : MachPort) (rest : List WaitlistClient) :
    (page.after earlier).moveToAccesslist client rest = (page.moveToAccesslist client rest).after earlier := rfl

@[simp]
theorem supply_after (client : MachPort) (data : ℕ) (deallocate : Bool) (lockValue : VmProt) :
    (page.after earlier).supply client data deallocate lockValue =
      (page.supply client data deallocate lockValue).after earlier := by
  simp [supply]

@[simp]
theorem setWriteAccessGranted_after (granted : Bool) :
    (page.after earlier).setWriteAccessGranted granted =
      (page.setWriteAccessGranted granted).after earlier := rfl

/-- The readers at the front of the wait list are supplied. -/
@[simp]
theorem supplyReaders_after (data : ℕ) (deallocate : Bool) (first : WaitlistClient)
    (rest : List WaitlistClient) :
    supplyReaders data deallocate first rest (page.after earlier) =
      (supplyReaders data deallocate first rest page).after earlier := by
  induction rest generalizing first page with
  | nil => simp [supplyReaders]
  | cons next rest ih =>
      simp only [supplyReaders, moveToAccesslist_after, supply_after]
      split_ifs with write
      · rfl
      · exact ih _ next

/-- One writer or all readers are served. -/
@[simp]
theorem serveFirst_after (data : ℕ) (allowWriteAccess deallocate : Bool)
    (first : WaitlistClient) (rest : List WaitlistClient) :
    (page.after earlier).serveFirst data allowWriteAccess deallocate first rest =
      (page.serveFirst data allowWriteAccess deallocate first rest).after earlier := by
  simp only [serveFirst, supply_after, moveToAccesslist_after, setWriteAccessGranted_after,
    supplyReaders_after]
  split_ifs <;> rfl

@[simp]
theorem flushForWaiting_after :
    (page.after earlier).flushForWaiting = page.flushForWaiting.after earlier := by
  simp only [flushForWaiting, after_entry, flushEach_after]
  split_ifs <;> rfl

/-- `service_WAITLIST` reads no earlier message. -/
theorem serviceWaitlist_after (data : ℕ) (allowWriteAccess deallocate : Bool) :
    (page.after earlier).serviceWaitlist data allowWriteAccess deallocate =
      (page.serviceWaitlist data allowWriteAccess deallocate).map (·.after earlier) := by
  simp only [serviceWaitlist, after_terminating, after_entry]
  by_cases terminating : page.terminating = true
  · simp [terminating]
  · simp only [terminating]
    cases page.entry.waitlist with
    | nil => rfl
    | cons first rest => simp

@[simp]
theorem setWaitlist_after (waitlist : List WaitlistClient) :
    (page.after earlier).setWaitlist waitlist = (page.setWaitlist waitlist).after earlier := rfl

@[simp]
theorem setError_after (error : KernReturn) :
    (page.after earlier).setError error = (page.setError error).after earlier := rfl

@[simp]
theorem removeFromAccesslist_after (client : MachPort) :
    (page.after earlier).removeFromAccesslist client =
      (page.removeFromAccesslist client).after earlier := rfl

@[simp]
theorem setInvalid_after (invalid : Bool) :
    (page.after earlier).setInvalid invalid = (page.setInvalid invalid).after earlier := rfl

@[simp]
theorem setPagingout_after (pagingout : Bool) :
    (page.after earlier).setPagingout pagingout = (page.setPagingout pagingout).after earlier := rfl

@[simp]
theorem evicted_after : (page.after earlier).evicted = page.evicted.after earlier := rfl

@[simp]
theorem recordWrite_after (error : KernReturn) :
    (page.after earlier).recordWrite error = (page.recordWrite error).after earlier := by
  simp only [recordWrite, setInvalid_after, setError_after]
  split_ifs <;> rfl

/-- A waiting client is sent the error, or is remembered. -/
theorem sendErrorTo_after (waiting : WaitlistClient) :
    (page.after earlier).sendErrorTo waiting = (page.sendErrorTo waiting).after earlier := by
  simp only [sendErrorTo, after_entry, after_nexterror, internalFlushRequest_after, send_after]
  split_ifs <;> rfl

/-- `send_error_to_WAITLIST` reads no earlier message. -/
@[simp]
theorem sendErrorToWaitlist_after :
    (page.after earlier).sendErrorToWaitlist = page.sendErrorToWaitlist.after earlier := by
  have sent : ∀ (waitlist : List WaitlistClient) (page : Page),
      waitlist.foldl sendErrorTo (page.after earlier) =
        (waitlist.foldl sendErrorTo page).after earlier := by
    intro waitlist
    induction waitlist with
    | nil => exact fun _ => rfl
    | cons waiting rest ih =>
        intro page
        rw [List.foldl_cons, sendErrorTo_after, ih, List.foldl_cons]
  rw [sendErrorToWaitlist, sendErrorToWaitlist, after_entry, sent, setWaitlist_after]

/-- `finalize_unlock` reads no earlier message. -/
theorem finalizeUnlock_after (error : KernReturn) :
    (page.after earlier).finalizeUnlock error =
      (page.finalizeUnlock error).map (·.after earlier) := by
  simp only [finalizeUnlock, after_entry]
  cases page.entry.waitlist with
  | nil => rfl
  | cons first rest =>
      simp only [setWaitlist_after, send_after, setWriteAccessGranted_after,
        internalFlushRequest_after, after_nexterror]
      split_ifs <;> rfl

/-- The end of a page-in reads no earlier message. -/
theorem finishPagein_after (result : ReadResult) :
    (page.after earlier).finishPagein result =
      (page.finishPagein result).map (·.after earlier) := by
  simp only [finishPagein, setError_after, serviceWaitlist_after, sendErrorToWaitlist_after]
  split_ifs <;> rfl

end Routines

section Constants

variable (page : Page)

/-- Flushing does not change the constants of the pager. -/
theorem flushEach_constants (clients : List MachPort) :
    SameConstants page (page.flushEach clients) := by
  induction clients generalizing page with
  | nil => exact .refl page
  | cons client rest ih => exact ih (page.internalFlushRequest client)

theorem supplyReaders_constants (data : ℕ) (deallocate : Bool) (first : WaitlistClient)
    (rest : List WaitlistClient) :
    SameConstants page (supplyReaders data deallocate first rest page) := by
  induction rest generalizing first page with
  | nil => exact ⟨rfl, rfl⟩
  | cons next rest ih =>
      simp only [supplyReaders]
      split_ifs with write
      · exact ⟨rfl, rfl⟩
      · exact ih _ next

/-- Nor do the errors for the waiting clients. -/
theorem sendErrorToWaitlist_constants : SameConstants page page.sendErrorToWaitlist := by
  have sent : ∀ (waitlist : List WaitlistClient) (page : Page),
      SameConstants page (waitlist.foldl sendErrorTo page) := by
    intro waitlist
    induction waitlist with
    | nil => exact .refl
    | cons waiting rest ih =>
        intro page
        have head : SameConstants page (page.sendErrorTo waiting) := by
          rw [sendErrorTo]
          split_ifs <;> exact ⟨rfl, rfl⟩
        exact head.trans (ih _)
  exact sent page.entry.waitlist page

variable {page} {next : Page}

/-- What `service_WAITLIST` does. -/
theorem serviceWaitlist_cases {data : ℕ} {allowWriteAccess deallocate : Bool}
    (served : page.serviceWaitlist data allowWriteAccess deallocate = some next) :
    (page.terminating = true ∧ next = page) ∨
      ∃ first rest, page.terminating = false ∧ page.entry.waitlist = first :: rest ∧
        next = (page.serveFirst data allowWriteAccess deallocate first rest).flushForWaiting := by
  unfold serviceWaitlist at served
  by_cases terminating : page.terminating = true
  · rw [if_pos terminating, Option.some_inj] at served
    exact Or.inl ⟨terminating, served.symm⟩
  · rw [if_neg terminating] at served
    cases waiting : page.entry.waitlist with
    | nil =>
        rw [waiting] at served
        cases served
    | cons first rest =>
        rw [waiting] at served
        exact Or.inr ⟨first, rest, Bool.eq_false_iff.mpr terminating, rfl,
          (Option.some_inj.mp served).symm⟩

theorem serveFirst_constants (data : ℕ) (allowWriteAccess deallocate : Bool)
    (first : WaitlistClient) (rest : List WaitlistClient) :
    SameConstants page (page.serveFirst data allowWriteAccess deallocate first rest) := by
  unfold serveFirst
  split_ifs
  · exact ⟨rfl, rfl⟩
  · exact supplyReaders_constants page data deallocate first rest

theorem flushForWaiting_constants : SameConstants page page.flushForWaiting := by
  unfold flushForWaiting
  split_ifs
  · exact .refl page
  · exact flushEach_constants page _

/-- `service_WAITLIST` keeps the constants. -/
theorem serviceWaitlist_constants {data : ℕ} {allowWriteAccess deallocate : Bool}
    (served : page.serviceWaitlist data allowWriteAccess deallocate = some next) :
    SameConstants page next := by
  rcases serviceWaitlist_cases served with ⟨_, rfl⟩ | ⟨first, rest, _, _, rfl⟩
  · exact .refl _
  · exact (serveFirst_constants data allowWriteAccess deallocate first rest).trans
      flushForWaiting_constants

/-- `finalize_unlock` keeps the constants. -/
theorem finalizeUnlock_constants {error : KernReturn}
    (finished : page.finalizeUnlock error = some next) : SameConstants page next := by
  unfold finalizeUnlock at finished
  split at finished
  · cases finished
  · simp only at finished
    split_ifs at finished <;> cases finished <;> exact ⟨rfl, rfl⟩

/-- The end of a page-in keeps the constants. -/
theorem finishPagein_constants {result : ReadResult}
    (finished : page.finishPagein result = some next) : SameConstants page next := by
  unfold finishPagein at finished
  simp only at finished
  split_ifs at finished with succeeded
  · have same := serviceWaitlist_constants finished
    exact same
  · cases finished
    have same := sendErrorToWaitlist_constants (page.setError result.error)
    exact same

end Constants

section Parts

/-- A part that cannot fail -/
theorem stable_some {routine : Page → Page}
    (after : ∀ page earlier, routine (page.after earlier) = (routine page).after earlier)
    (constants : ∀ page, SameConstants page (routine page)) :
    Stable fun page => some (routine page) where
  after page earlier := congrArg some (after page earlier)
  constants := by
    rintro page next ⟨⟩
    exact constants page

theorem stable_send (event : PageEvent) : Stable fun page => some (page.send event) :=
  stable_some (fun page earlier => page.send_after earlier event) fun _ => ⟨rfl, rfl⟩

theorem stable_flushEach (clients : List MachPort) :
    Stable fun page => some (page.flushEach clients) :=
  stable_some (fun page earlier => page.flushEach_after earlier clients)
    fun page => page.flushEach_constants clients

/-- `internal_lock_completed` up to its callback -/
theorem stable_internalLockCompletedEnter (client : MachPort) :
    StableFlag fun page => page.internalLockCompletedEnter client where
  after page earlier := by
    simp only [internalLockCompletedEnter, after_entry, removeFromAccesslist_after,
      sendErrorToWaitlist_after]
    split_ifs <;> simp_all
  constants := by
    intro page next flag entered
    unfold internalLockCompletedEnter at entered
    simp only at entered
    split_ifs at entered <;> cases entered <;>
      first
        | exact sendErrorToWaitlist_constants (page.removeFromAccesslist client)
        | exact ⟨rfl, rfl⟩

/-- The callback that `internal_lock_completed` makes -/
theorem stable_internalLockCompletedCall (operation : Operation) :
    Stable fun page => some (page.internalLockCompletedCall operation) := by
  cases operation with
  | none => exact stable_some (fun _ _ => rfl) .refl
  | pagein => exact stable_send _
  | unlock => exact stable_send _

theorem stable_finalizeUnlock (error : KernReturn) :
    Stable fun page => page.finalizeUnlock error where
  after page earlier := page.finalizeUnlock_after earlier error
  constants := finalizeUnlock_constants

/-- `internal_lock_completed` after its callback -/
theorem stable_internalLockCompletedExit (results : PageCallbacks) (operation : Operation) :
    Stable fun page => page.internalLockCompletedExit results operation := by
  cases operation with
  | none => exact stable_some (fun _ _ => rfl) .refl
  | pagein =>
      exact ⟨fun page earlier => page.finishPagein_after earlier results.read,
        finishPagein_constants⟩
  | unlock => exact stable_finalizeUnlock results.unlock

/-- `data_unlock` up to its callback -/
theorem stable_dataUnlockEnter (client : MachPort) :
    StableFlag fun page => page.dataUnlockEnter client where
  after page earlier := by
    have added : (page.after earlier).addToWaitlist client true =
        (page.addToWaitlist client true).after earlier := rfl
    simp only [dataUnlockEnter, after_entry, added]
    split_ifs <;> simp_all
  constants := by
    intro page next flag entered
    unfold dataUnlockEnter at entered
    split_ifs at entered <;> cases entered <;> exact ⟨rfl, rfl⟩

theorem stable_unlockCall (doUnlock : Bool) :
    Stable fun page => some (page.unlockCall doUnlock) := by
  cases doUnlock with
  | false => exact stable_some (fun _ _ => rfl) .refl
  | true => exact stable_send _

theorem stable_unlockExit (doUnlock : Bool) (results : PageCallbacks) :
    Stable fun page => page.unlockExit doUnlock results := by
  cases doUnlock with
  | false => exact stable_some (fun _ _ => rfl) .refl
  | true => exact stable_finalizeUnlock results.unlock

/-- The page is handed on to the client that waits for it. -/
theorem stable_dataReturnHandOff (client : MachPort) (data : ℕ) (dirty kernelCopy : Bool) :
    StableFlag fun page => page.dataReturnHandOff client data dirty kernelCopy where
  after page earlier := by
    unfold dataReturnHandOff
    by_cases dead : client = machPortDead
    · simp only [dead, if_true, after_entry, after_terminating, serviceWaitlist_after]
      split_ifs <;> simp [evicted, Page.after, Option.map_map, Function.comp_def]
    · simp only [dead, if_false, removeFromAccesslist_after, after_entry, after_terminating,
        serviceWaitlist_after]
      split_ifs <;> simp [evicted, Page.after, Option.map_map, Function.comp_def]
  constants := by
    intro page next flag entered
    unfold dataReturnHandOff at entered
    simp only at entered
    split_ifs at entered
    all_goals
      first
        | (cases entered; exact ⟨rfl, rfl⟩)
        | skip
    all_goals
      rcases Option.map_eq_some_iff.mp entered with ⟨served, servedEq, same⟩
      cases same
      have constants := serviceWaitlist_constants servedEq
      exact constants

/-- `data_return` up to its callbacks -/
theorem stable_dataReturnEnter (client : MachPort) (data : ℕ) (dirty kernelCopy : Bool) :
    StableFlag fun page => page.dataReturnEnter client data dirty kernelCopy where
  after page earlier := by
    have handOff := (stable_dataReturnHandOff client data dirty kernelCopy).after page earlier
    simp only [dataReturnEnter, handOff, Option.map_map]
    rfl
  constants := by
    intro page next flag entered
    rcases Option.map_eq_some_iff.mp entered with ⟨⟨middle, flags⟩, handedOff, same⟩
    cases same
    have constants := (stable_dataReturnHandOff client data dirty kernelCopy).constants handedOff
    exact constants

theorem stable_returnCall (flags : ReturnFlags) (results : PageCallbacks) :
    Stable fun page => some (page.returnCall flags results) := by
  refine stable_some (fun page earlier => ?_) fun page => ?_
  · simp only [returnCall, unlockCall]
    split_ifs <;> simp
  · simp only [returnCall, unlockCall]
    split_ifs <;> exact ⟨rfl, rfl⟩

/-- What `service_first_WRITEWAIT_entry` does after the write -/
theorem stable_afterWrite (data : ℕ) (kernelCopy : Bool) (error : KernReturn) (last : Bool) :
    StableFlag fun page => page.afterWrite data kernelCopy error last where
  after page earlier := by
    simp only [afterWrite, recordWrite_after, setPagingout_after, after_entry,
      serviceWaitlist_after, evicted_after]
    split_ifs <;> simp_all [Option.map_map, Function.comp_def]
  constants := by
    intro page next flag entered
    have recorded : SameConstants page ((page.recordWrite error).setPagingout false) := by
      unfold recordWrite
      split_ifs <;> exact ⟨rfl, rfl⟩
    unfold afterWrite at entered
    simp only at entered
    split_ifs at entered
    all_goals
      first
        | (cases entered; exact recorded)
        | skip
    all_goals
      rcases Option.map_eq_some_iff.mp entered with ⟨served, servedEq, same⟩
      cases same
      have constants := serviceWaitlist_constants servedEq
      exact recorded.trans constants

theorem stable_notifyCall (doNotify : Bool) :
    Stable fun page => some (page.notifyCall doNotify) := by
  refine stable_some (fun page earlier => ?_) fun page => ?_
  · simp only [notifyCall, after_precious, send_after]
    split_ifs <;> rfl
  · simp only [notifyCall]
    split_ifs <;> exact ⟨rfl, rfl⟩

/-- `internal_lock_completed` as a whole keeps the constants. -/
theorem internalLockCompleted_constants {page next : Page} {client : MachPort}
    {results : PageCallbacks} (completed : page.internalLockCompleted client results = some next) :
    SameConstants page next := by
  unfold internalLockCompleted at completed
  split_ifs at completed
  · cases completed
    exact .refl _
  · rcases Option.bind_eq_some_iff.mp completed with ⟨⟨entered, operation⟩, enterDone, exitDone⟩
    have entering := (stable_internalLockCompletedEnter client).constants enterDone
    have calling : SameConstants entered (entered.internalLockCompletedCall operation) :=
      (stable_internalLockCompletedCall operation).constants rfl
    have exiting := (stable_internalLockCompletedExit results operation).constants exitDone
    exact entering.trans (calling.trans exiting)

theorem dataRequestWait_constants (page : Page) (client : MachPort) (write : Bool) :
    SameConstants page (page.dataRequestWait client write).1 := by
  unfold dataRequestWait
  split_ifs
  · exact flushEach_constants (page.addToWaitlist client write) _
  · exact flushEach_constants (page.addToWaitlist client write) _
  · exact ⟨rfl, rfl⟩
  · exact ⟨rfl, rfl⟩
  · exact ⟨rfl, rfl⟩

theorem dataRequestEnter_constants (page : Page) (client : MachPort) (write : Bool) :
    SameConstants page (page.dataRequestEnter client write).1 := by
  unfold dataRequestEnter
  split
  · exact ⟨rfl, rfl⟩
  · split_ifs
    · exact flushEach_constants page _
    · exact ⟨rfl, rfl⟩
    · exact dataRequestWait_constants
        ((page.removeFromAccesslist client).setWriteAccessGranted false) client write
    · exact ⟨rfl, rfl⟩
    · exact dataRequestWait_constants page client write

/-- `data_request` as a whole keeps the constants. -/
theorem dataRequest_constants {page next : Page} {client : MachPort} {write : Bool}
    {results : PageCallbacks} (requested : page.dataRequest client write results = some next) :
    SameConstants page next := by
  have entering := page.dataRequestEnter_constants client write
  unfold dataRequest finishRequest at requested
  split at requested
  · rename_i entered stage
    rw [stage] at entering
    cases requested
    exact entering
  · rename_i entered stage
    rw [stage] at entering
    exact entering.trans (internalLockCompleted_constants requested)
  · rename_i entered stage
    rw [stage] at entering
    have finishing := finishPagein_constants requested
    exact entering.trans finishing

end Parts

end Page

end Hurd.Libpager
