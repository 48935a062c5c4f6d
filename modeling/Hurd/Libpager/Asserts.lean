import Hurd.Libpager.Grants

/-!
# Asserts that cannot fail

A handler of the pager fails only where the page it is about does (`Pager.handle_total`), and
a page fails only in `data_unlock`, when the client is not on ACCESSLIST or the page is
granted for writing, and in `internal_lock_completed`, when the page is granted for writing.
The first cannot happen with kernels that keep to the protocol, as long as access changes
hands as `Page.Transfer` says.  The second can: a lock is completed while the page is granted
for writing whenever a kernel answers a flush without having written the page, and whenever
the page has gone to another writer meanwhile.
-/

namespace Hurd.Libpager

namespace Page

variable {page : Page} {client : MachPort} {results : PageCallbacks}

theorem serviceWaitlist_total (page : Page) (data : ℕ) (allowWriteAccess deallocate : Bool)
    (waiting : page.entry.waitlist ≠ []) :
    ∃ next, page.serviceWaitlist data allowWriteAccess deallocate = some next := by
  unfold serviceWaitlist
  split_ifs
  · exact ⟨_, rfl⟩
  · cases waits : page.entry.waitlist with
    | nil => exact absurd waits waiting
    | cons first rest => exact ⟨_, rfl⟩

theorem finalizeUnlock_total (error : KernReturn) (waiting : page.entry.waitlist ≠ []) :
    ∃ next, page.finalizeUnlock error = some next := by
  unfold finalizeUnlock
  cases waits : page.entry.waitlist with
  | nil => exact absurd waits waiting
  | cons first rest =>
      simp only
      split_ifs <;> exact ⟨_, rfl⟩

theorem finishPagein_total (result : ReadResult) (waiting : page.entry.waitlist ≠ []) :
    ∃ next, page.finishPagein result = some next := by
  unfold finishPagein
  simp only
  split_ifs
  · exact serviceWaitlist_total _ _ _ _ (by exact waiting)
  · exact ⟨_, rfl⟩

/-- `internal_lock_completed` fails only on a page that is granted for writing. -/
theorem internalLockCompleted_total (results : PageCallbacks)
    (notGranted : page.entry.writeAccessGranted = false) :
    ∃ next, page.internalLockCompleted client results = some next := by
  unfold internalLockCompleted
  split_ifs
  · exact ⟨_, rfl⟩
  unfold internalLockCompletedEnter
  simp only [notGranted, Bool.false_eq_true, if_false]
  split_ifs with waits
  · exact ⟨_, rfl⟩
  · exact finishPagein_total _ (by exact waits.2)
  · exact finalizeUnlock_total _ (by exact waits.2)
  · exact ⟨_, rfl⟩
  · exact ⟨_, rfl⟩

/-- A last lock is completed on a page that is granted for writing. -/
def CompletesGranted (page : Page) : PageInput → Prop
  | .dataRequest client _ =>
      takeNexterror client page.nexterror = none ∧ client ∈ page.entry.accesslist ∧
        page.entry.waitlist ≠ [] ∧ page.entry.writeAccessGranted = true
  | .dataUnlock .. => False
  | .dataReturn .. => False
  | .dataReturnUnmatched .. => False
  | .lockCompleted client =>
      (∃ record, page.lock? client = some record ∧ record.count = 1) ∧
        page.entry.writeAccessGranted = true
  | .dropClient client =>
      (∃ record, page.lock? client = some record) ∧ page.entry.writeAccessGranted = true
  | .lockObject _ => False
  | .shutdown => False

theorem dataRequest_total {write : Bool} (results : PageCallbacks)
    (notPagingout : page.entry.pagingout = false)
    (notCompleted : ¬page.CompletesGranted (.dataRequest client write)) :
    ∃ next, page.dataRequest client write results = some next := by
  have waits : ∀ other : Page, ∃ next,
      finishRequest client results (other.dataRequestWait client write) = some next := by
    intro other
    unfold dataRequestWait
    split_ifs
    · exact ⟨_, rfl⟩
    · exact ⟨_, rfl⟩
    · exact finishPagein_total _ (by simp [addToWaitlist, send])
    · exact finishPagein_total _ (by simp [addToWaitlist, send])
    · exact ⟨_, rfl⟩
  unfold dataRequest dataRequestEnter
  cases taken : takeNexterror client page.nexterror with
  | some found => exact ⟨_, rfl⟩
  | none =>
      simp only [notPagingout, Bool.false_eq_true, if_false]
      split_ifs with listed waiting
      · exact waits _
      · apply internalLockCompleted_total
        apply Bool.eq_false_iff.mpr
        intro granted
        refine notCompleted ⟨taken, listed, ?_, granted⟩
        rwa [List.isEmpty_iff] at waiting
      · exact waits _

theorem dataUnlockEnter_total (listed : client ∈ page.entry.accesslist)
    (notGranted : page.entry.writeAccessGranted = false)
    (notPagingout : page.entry.pagingout = false) :
    ∃ entered doUnlock flushes, page.dataUnlockEnter client = some (entered, doUnlock, flushes) ∧
      (doUnlock = true → entered.entry.waitlist ≠ []) := by
  unfold dataUnlockEnter
  simp only [listed, notGranted, notPagingout, not_true_eq_false, Bool.false_eq_true, or_self,
    if_false]
  split_ifs
  · exact ⟨_, _, _, rfl, nofun⟩
  · exact ⟨_, _, _, rfl, nofun⟩
  · exact ⟨_, _, _, rfl, fun _ => by simp [addToWaitlist]⟩
  · exact ⟨_, _, _, rfl, nofun⟩

theorem dataUnlock_total (first : Bool) (others : List MachPort) (results : PageCallbacks)
    (listed : client ∈ page.entry.accesslist)
    (notGranted : page.entry.writeAccessGranted = false)
    (notPagingout : page.entry.pagingout = false) :
    ∃ next, page.dataUnlock client first others results = some next := by
  rcases dataUnlockEnter_total listed notGranted notPagingout with
    ⟨entry, doUnlock, flushes, enterDone, waiting⟩
  rw [dataUnlock, enterDone, Option.bind_some]
  cases doUnlock with
  | false => exact ⟨_, rfl⟩
  | true =>
      apply finalizeUnlock_total
      simpa [unlockCall, send] using waiting rfl

theorem dataReturnEnter_total (client : MachPort) (data : ℕ) (dirty : Bool) :
    ∃ handed flags, page.dataReturnHandOff client data dirty false = some (handed, flags) ∧
      page.dataReturnEnter client data dirty false =
        some ({ handed with
          entry := { handed.entry with pagingout := handed.entry.pagingout || dirty } }, flags) := by
  have total : ∃ result, page.dataReturnHandOff client data dirty false = some result := by
    unfold dataReturnHandOff
    simp only [Bool.false_eq_true, if_false]
    generalize (if client = machPortDead then page else page.removeFromAccesslist client) = left
    split_ifs with serves
    · have waiting : left.entry.waitlist ≠ [] := by
        intro noneWaiting
        simp [noneWaiting] at serves
      rcases left.serviceWaitlist_total data true false waiting with ⟨next, served⟩
      exact ⟨_, congrArg (Option.map _) served⟩
    · exact ⟨_, rfl⟩
    · exact ⟨_, rfl⟩
    · exact ⟨_, rfl⟩
  rcases total with ⟨⟨handed, flags⟩, done⟩
  refine ⟨handed, flags, done, ?_⟩
  rw [dataReturnEnter, done]
  rfl

/-- `data_return` of one page, when nobody who waits holds it. -/
theorem dataReturn_total (client : MachPort) (data : ℕ) (dirty : Bool) (results : PageCallbacks)
    (orderly : page.Orderly) :
    ∃ next, page.dataReturn client data dirty false false results = some next := by
  rcases page.dataReturnEnter_total client data dirty with ⟨handed, flags, done, entered⟩
  have handedOff := dataReturnHandOff_cases done
  have noUnlock := (orderly.handedOff handedOff).2
  rw [dataReturn, entered, Option.bind_some]
  simp only [noUnlock, Bool.false_or, unlockExit, Bool.false_eq_true, if_false]
  cases dirty with
  | false =>
      simp only [Bool.false_eq_true, if_false]
      split_ifs <;> exact ⟨_, rfl⟩
  | true =>
      have noNotify : flags.doNotify = false := by
        cases handedOff with
        | keeps _ _ flagsEq => rw [flagsEq]
        | serves _ _ _ _ flagsEq => rw [flagsEq]
        | unlocks _ _ _ _ _ _ _ _ _ flagsEq => rw [flagsEq]
        | evicts _ clean => cases clean
        | leaves _ _ _ flagsEq => rw [flagsEq]
      simp only [noNotify, Bool.false_eq_true, if_false, if_true, writeBack, afterWrite]
      split_ifs with noneWaiting
      · exact ⟨_, rfl⟩
      · rw [List.isEmpty_iff] at noneWaiting
        rcases serviceWaitlist_total _ data true false noneWaiting with ⟨served, serveDone⟩
        rw [serveDone]
        exact ⟨_, rfl⟩

theorem lockCompleted_total (results : PageCallbacks) {record : OutstandingClientLock}
    (found : page.lock? client = some record) (counted : record.count ≠ 0)
    (notCompleted : ¬page.CompletesGranted (.lockCompleted client)) :
    ∃ next, page.lockCompleted client results = some next := by
  rw [lockCompleted, found]
  simp only [counted, if_false]
  split_ifs with last isInternal
  · apply internalLockCompleted_total
    apply Bool.eq_false_iff.mpr
    exact fun granted => notCompleted ⟨⟨record, found, last⟩, granted⟩
  · exact ⟨_, rfl⟩
  · exact ⟨_, rfl⟩

theorem dropLocks_total (results : PageCallbacks)
    (notCompleted : ¬page.CompletesGranted (.dropClient client)) :
    ∃ next, page.dropLocks client results = some next := by
  unfold dropLocks
  cases locks? : page.locks with
  | none => exact ⟨_, rfl⟩
  | some locks =>
      simp only
      split_ifs with isInternal
      · apply internalLockCompleted_total
        apply Bool.eq_false_iff.mpr
        intro granted
        cases found : locks.find? client with
        | none => simp [found] at isInternal
        | some record =>
            refine notCompleted ⟨⟨record, ?_⟩, granted⟩
            rw [lock?, locks?]
            exact found
      · exact ⟨_, rfl⟩

end Page

namespace Pager

variable {pager : Pager} {client : MachPort} {results : Callbacks} {number : ℕ}

section Loops

variable {Flag : Type}

theorem forEach_onPage_total (pager : Pager) {pages : List ℕ} (distinct : pages.Nodup)
    {part : ℕ → Page → Option Page} (stable : ∀ number, Page.Stable (part number))
    (succeeds : ∀ number ∈ pages, ∃ page, part number (pager.view number) = some page) :
    ∃ next, Loop.forEach (fun number pager => pager.onPage number (part number)) pages pager =
      some next := by
  apply Loop.forEach_total distinct fun number _ => onPage_local number (part number)
  intro number numberMem
  rw [(stable number).andThen_eq]
  exact succeeds number numberMem

theorem forEach_onPageFlag_total (state : Pager × (ℕ → Flag)) {pages : List ℕ}
    (distinct : pages.Nodup) {part : ℕ → Page → Option (Page × Flag)}
    (stable : ∀ number, Page.StableFlag (part number))
    (succeeds : ∀ number ∈ pages, ∃ result, part number (state.1.view number) = some result) :
    ∃ next, Loop.forEach (fun number state => onPageFlag state number (part number)) pages state =
      some next := by
  apply Loop.forEach_total distinct fun number _ => onPageFlag_local number (part number)
  intro number numberMem
  rw [viewFlag, (stable number).andThenFlag_eq]
  exact succeeds number numberMem

end Loops

/-- `internal_lock_completed` for a flush of one page fails only where the page does. -/
theorem internalLockCompleted_total {after : Page}
    (completed : (pager.view number).internalLockCompleted client (results number) = some after) :
    ∃ next, pager.internalLockCompleted client (number * pager.pageSize) pager.pageSize results =
      some next := by
  have aligned : ¬(pager.pageSize % pager.pageSize ≠ 0 ∨
      number * pager.pageSize % pager.pageSize ≠ 0) := by simp
  rw [internalLockCompleted, if_neg aligned]
  by_cases terminating : pager.terminating = true
  · rw [if_pos terminating]
    exact ⟨_, rfl⟩
  rw [if_neg terminating, pagesOf_page]
  rw [Page.internalLockCompleted, if_neg (by exact terminating)] at completed
  rcases Option.bind_eq_some_iff.mp completed with ⟨⟨entered, operation⟩, enters, exits⟩
  have distinct : [number].Nodup := by simp
  have enterStable : ∀ _ : ℕ, Page.StableFlag fun page => page.internalLockCompletedEnter client :=
    fun _ => Page.stable_internalLockCompletedEnter client
  rcases forEach_onPageFlag_total (pager, fun _ => Page.Operation.none) distinct enterStable
    (by simp [enters]) with ⟨⟨entering, operations⟩, enterDone⟩
  rcases forEach_onPage_total entering distinct
    (fun other => Page.stable_internalLockCompletedCall (operations other))
    (fun _ _ => ⟨_, rfl⟩) with ⟨called, callDone⟩
  simp only [enterDone, Option.bind_some, callDone]
  apply forEach_onPage_total called distinct
    (fun other => Page.stable_internalLockCompletedExit (results other) (operations other))
  intro other otherMem
  have isNumber := List.mem_singleton.mp otherMem
  subst isNumber
  rcases forEach_onPageFlag distinct enterStable enterDone with ⟨-, enterOwn, -⟩
  rcases forEach_onPage distinct
    (fun other => Page.stable_internalLockCompletedCall (operations other)) callDone with
    ⟨-, callOwn, -⟩
  have entersPage := enterOwn other List.mem_cons_self
  rw [enters, Option.some_inj, Prod.mk.injEq] at entersPage
  rcases entersPage with ⟨viewEq, operationEq⟩
  have callsPage := Option.some_inj.mp (callOwn other List.mem_cons_self)
  rw [← callsPage, ← viewEq, show operations other = operation from operationEq.symm]
  exact ⟨_, exits⟩

/-- `data_unlock` of one page fails only where the page does. -/
theorem dataUnlock_total {after : Page} (running : pager.terminating = false)
    (unlocked : (pager.view number).dataUnlock client true [] (results number) = some after) :
    ∃ next, pager.dataUnlock client (number * pager.pageSize) pager.pageSize results =
      some next := by
  have aligned : ¬(pager.pageSize % pager.pageSize ≠ 0 ∨
      number * pager.pageSize % pager.pageSize ≠ 0) := by simp
  have notTerminating : ¬pager.terminating = true := by
    rw [running]
    nofun
  have divided : number * pager.pageSize / pager.pageSize = number :=
    Nat.mul_div_cancel _ pager.pageSize_pos
  rw [dataUnlock, if_neg aligned, if_neg notTerminating, pagesOf_page, divided]
  rcases Option.bind_eq_some_iff.mp unlocked with ⟨⟨entered, doUnlock, flushes⟩, enters, exits⟩
  have distinct : [number].Nodup := by simp
  have passed : ∃ state, Loop.forEach (unlockPass client number) [number]
      (pager, fun _ => false) = some state := by
    have enters' := enters
    rw [← (Page.stable_dataUnlockEnter client).andThenFlag_eq] at enters'
    rcases Option.map_eq_some_iff.mp enters' with ⟨⟨page, result⟩, pageEnters, -⟩
    rcases result with ⟨pageUnlock, pageFlushes⟩
    simp only [Loop.forEach, unlockPass, Option.bind_eq_some_iff]
    refine ⟨_, _, ⟨_, pageEnters, rfl⟩, rfl⟩
  rcases passed with ⟨⟨entering, flags⟩, enterDone⟩
  rcases forEach_onPage_total entering distinct
    (fun other => Page.stable_unlockCall (flags other)) (fun _ _ => ⟨_, rfl⟩) with
    ⟨called, callDone⟩
  simp only [enterDone, Option.bind_some, callDone]
  apply forEach_onPage_total called distinct
    (fun other => Page.stable_unlockExit (flags other) (results other))
  intro other otherMem
  have isNumber := List.mem_singleton.mp otherMem
  subst isNumber
  rcases forEach_onPage distinct (fun other => Page.stable_unlockCall (flags other)) callDone with
    ⟨-, callOwn, -⟩
  have callsPage := Option.some_inj.mp (callOwn other List.mem_cons_self)
  rcases Option.bind_eq_some_iff.mp enterDone with ⟨state, passDone, same⟩
  cases same
  rcases unlockPass_view passDone with
    ⟨-, page, pageUnlock, pageFlushes, pageEnters, -, flagsEq, viewEq, -⟩
  rw [enters, Option.some_inj, Prod.mk.injEq, Prod.mk.injEq] at pageEnters
  rcases pageEnters with ⟨rfl, rfl, rfl⟩
  rw [if_pos rfl] at viewEq
  simp only at flagsEq viewEq
  rw [← callsPage, viewEq, flagsEq, Function.update_self]
  simp only [if_true, List.append_nil] at exits
  exact ⟨_, exits⟩

/-- The write of one returned page fails only where the page does. -/
theorem serviceWritewait_total (data : ℕ → ℕ) {after : Page}
    (writes : (pager.view number).writeBack (data 0) false (results number) = some after) :
    ∃ next, serviceWritewait results 1 { pager with
      writewait := [⟨number * pager.pageSize, data, pager.pageSize, false⟩] } = some next := by
  have divided : number * pager.pageSize / pager.pageSize = number :=
    Nat.mul_div_cancel _ pager.pageSize_pos
  have distinct : [number].Nodup := by simp
  have covers : ∀ other : Pager, other.pageSize = pager.pageSize →
      other.writewait = [⟨number * pager.pageSize, data, pager.pageSize, false⟩] →
      other.matchingPageCountOnWritewait number = 1 := by
    intro other sameSize queued
    rw [matchingPageCount_of_single queued, ← sameSize]
    exact matchesPage_single other number
  have onlyPage : ({ pager with writewait :=
      [⟨number * pager.pageSize, data, pager.pageSize, false⟩] } : Pager).pagesOf
        (number * pager.pageSize) pager.pageSize = [number] := pager.pagesOf_page number
  simp only [serviceWritewait, List.isEmpty_cons, Bool.false_eq_true, if_false,
    serviceFirstWritewaitEntry, onlyPage, divided]
  rw [List.filter_cons_of_pos (by simp [covers]), List.filter_nil]
  rcases Option.map_eq_some_iff.mp writes with ⟨⟨served, doNotify⟩, serves, -⟩
  rcases forEach_onPage_total { pager with writewait :=
      [⟨number * pager.pageSize, data, pager.pageSize, false⟩] } distinct
    (fun other => Page.stable_send (.writePage (data (other - number))))
    (fun _ _ => ⟨_, rfl⟩) with ⟨written, writeDone⟩
  rcases forEach_onPage distinct
    (fun other => Page.stable_send (.writePage (data (other - number)))) writeDone with
    ⟨writeRest, writeOwn, -⟩
  have writesPage := Option.some_inj.mp (writeOwn number List.mem_cons_self)
  have stillCovers := covers written writeRest.pageSize writeRest.writewait
  rcases forEach_onPageFlag_total (written, fun _ => false) distinct
    (fun other => Page.stable_afterWrite (data (other - number)) false (results other).write
      (written.matchingPageCountOnWritewait other = 1)) (by
      intro other otherMem
      have isNumber := List.mem_singleton.mp otherMem
      subst isNumber
      rw [← writesPage, decide_eq_true stillCovers, Nat.sub_self]
      exact ⟨_, serves⟩) with ⟨⟨serving, flags⟩, serveDone⟩
  rcases forEach_onPage_total serving distinct
    (fun other => Page.stable_notifyCall (flags other)) (fun _ _ => ⟨_, rfl⟩) with
    ⟨notified, notifyDone⟩
  simp only [writeDone, Option.bind_some, serveDone, notifyDone, Option.map_some]
  exact ⟨_, rfl⟩

/-- `data_return` of one page fails only where the page does. -/
theorem dataReturn_total {version : ℕ} {dirty : Bool} {after : Page}
    (noneQueued : pager.writewait = [])
    (returned : (pager.view number).dataReturn client version dirty false false (results number) =
      some after) :
    ∃ next, pager.dataReturn client (number * pager.pageSize) (fun _ => version) pager.pageSize
      dirty false results = some next := by
  have aligned : ¬(pager.pageSize % pager.pageSize ≠ 0 ∨
      number * pager.pageSize % pager.pageSize ≠ 0) := by simp
  have distinct : [number].Nodup := by simp
  rw [dataReturn, if_neg aligned, pagesOf_page]
  rcases Option.bind_eq_some_iff.mp returned with ⟨⟨entered, flags⟩, enters, exits⟩
  have enterStable : ∀ _ : ℕ, Page.StableFlag fun page =>
      page.dataReturnEnter client version dirty false :=
    fun _ => Page.stable_dataReturnEnter client version dirty false
  rcases forEach_onPageFlag_total (pager, fun _ => (⟨false, false⟩ : Page.ReturnFlags)) distinct
    enterStable (by simp [enters]) with ⟨⟨entering, allFlags⟩, enterDone⟩
  rcases forEach_onPageFlag distinct enterStable enterDone with ⟨enterRest, enterOwn, -⟩
  have entersPage := enterOwn number List.mem_cons_self
  rw [enters, Option.some_inj, Prod.mk.injEq] at entersPage
  rcases entersPage with ⟨viewEq, flagsEq⟩
  simp only at viewEq flagsEq
  simp only [enterDone, Option.bind_some, List.mem_singleton, exists_eq_left, ← flagsEq]
  simp only [Bool.false_or, Bool.or_eq_true] at exits
  by_cases flagged : flags.doUnlock = true ∨ flags.doNotify = true
  · simp only [flagged, if_true] at exits ⊢
    cases dirty with
    | true => cases exits
    | false =>
        simp only [Bool.false_eq_true, if_false] at exits ⊢
        rcases forEach_onPage_total entering distinct
          (fun other => Page.stable_returnCall (allFlags other) (results other))
          (fun _ _ => ⟨_, rfl⟩) with ⟨called, callDone⟩
        rcases forEach_onPage distinct
          (fun other => Page.stable_returnCall (allFlags other) (results other)) callDone with
          ⟨-, callOwn, -⟩
        have callsPage := Option.some_inj.mp (callOwn number List.mem_cons_self)
        rcases forEach_onPage_total called distinct
          (fun other => Page.stable_unlockExit (allFlags other).doUnlock (results other)) (by
            intro other otherMem
            have isNumber := List.mem_singleton.mp otherMem
            subst isNumber
            rw [← callsPage, ← viewEq, ← flagsEq]
            exact ⟨_, exits⟩) with ⟨unlocked, exitDone⟩
        simp only [dataReturnUnlocks, callDone, Option.bind_some, exitDone]
        exact ⟨_, rfl⟩
  · simp only [flagged, if_false, Option.bind_some] at exits ⊢
    cases dirty with
    | false => exact ⟨_, rfl⟩
    | true =>
        have stillNone : entering.writewait = [] := enterRest.writewait.trans noneQueued
        have sameSize : entering.pageSize = pager.pageSize := enterRest.pageSize
        simp only [if_true] at exits ⊢
        rw [stillNone]
        simp only [List.isEmpty_nil, not_true_eq_false, if_false, List.nil_append,
          List.length_singleton]
        rw [viewEq] at exits
        rw [← sameSize]
        exact serviceWritewait_total (fun _ => version) exits

/-- `lock_completed` of one page fails only where the page does. -/
theorem lockCompleted_total {after : Page}
    (answered : (pager.view number).lockCompleted client (results number) = some after) :
    ∃ next, pager.lockCompleted client (number * pager.pageSize) pager.pageSize results =
      some next := by
  unfold Page.lockCompleted at answered
  cases found : (pager.view number).locks with
  | none =>
      rw [Page.lock?, found] at answered
      cases answered
  | some locks =>
      have sameLock : (pager.view number).lock? client = locks.find? client := by
        rw [Page.lock?, found]
        rfl
      have sameLocks : pager.outstandingLocks.find?
          (toLex (number * pager.pageSize, pager.pageSize) : LockKey) = some locks := found
      rw [sameLock] at answered
      simp only [lockCompleted, sameLocks]
      cases record? : locks.find? client with
      | none =>
          rw [record?] at answered
          cases answered
      | some record =>
          rw [record?] at answered
          simp only [found, Option.getD_some] at answered ⊢
          split_ifs at answered ⊢
          · have sameView := pager.view_storeLocks_self number (locks.erase client)
            rw [← sameView] at answered
            have sameSize := (pager.sameCore_storeLocks (pager.pageKey number)
              (locks.erase client)).pageSize
            have total := internalLockCompleted_total answered
            rw [sameSize] at total
            exact total
          · exact ⟨_, rfl⟩
          · exact ⟨_, rfl⟩

/-- `drop_client` fails on a lock record only where its page does. -/
theorem dropLocks_total {key : LockKey} (noInternal : pager.NoInternalElsewhere)
    (pagesDrop : ∀ number, pager.pageKey number = key →
      ∃ after, (pager.view number).dropLocks client (results number) = some after) :
    ∃ next, pager.dropLocks client key results = some next := by
  unfold dropLocks
  cases found : pager.outstandingLocks.find? key with
  | none => exact ⟨_, rfl⟩
  | some locks =>
      simp only
      split_ifs with internal
      · by_cases isPage : ∃ number, pager.pageKey number = key
        · rcases isPage with ⟨number, rfl⟩
          rcases pagesDrop number rfl with ⟨after, dropped⟩
          have pageLocks : (pager.view number).locks = some locks := found
          rw [Page.dropLocks, pageLocks] at dropped
          simp only [internal, if_true] at dropped
          rw [← pager.view_storeLocks_self number (locks.erase client)] at dropped
          have total := internalLockCompleted_total dropped
          rw [(pager.sameCore_storeLocks (pager.pageKey number) (locks.erase client)).pageSize]
            at total
          exact total
        · have external := noInternal key (fun number same => isPage ⟨number, same.symm⟩) locks
            found
          cases record? : locks.find? client with
          | none => simp [record?] at internal
          | some record =>
              simp only [record?, Option.map_some, Option.getD_some] at internal
              rw [external client record record?] at internal
              cases internal
      · exact ⟨_, rfl⟩

theorem forEach_dropLocks_total {keys : List LockKey} (distinct : keys.Nodup)
    (noInternal : pager.NoInternalElsewhere)
    (pagesDrop : ∀ number, pager.pageKey number ∈ keys →
      ∃ after, (pager.view number).dropLocks client (results number) = some after) :
    ∃ next, Loop.forEach (fun key pager => pager.dropLocks client key results) keys pager =
      some next := by
  induction keys generalizing pager with
  | nil => exact ⟨pager, rfl⟩
  | cons head tail ih =>
      rcases List.nodup_cons.mp distinct with ⟨headNotMem, tailDistinct⟩
      rcases dropLocks_total noInternal (fun number isHead =>
        pagesDrop number (by rw [isHead]; exact List.mem_cons_self)) with ⟨middle, headDone⟩
      rcases dropLocks_view noInternal headDone with ⟨core, stillNone, -, frame⟩
      -- the pages whose keys are still to come are as they were
      have tailDrops : ∀ number, middle.pageKey number ∈ tail →
          ∃ after, (middle.view number).dropLocks client (results number) = some after := by
        intro number inTail
        rw [core.pageKey] at inTail
        rw [frame number fun isHead => headNotMem (isHead ▸ inTail)]
        exact pagesDrop number (List.mem_cons_of_mem _ inTail)
      rcases ih tailDistinct stillNone tailDrops with ⟨next, tailDone⟩
      exact ⟨next, by rw [Loop.forEach, headDone, Option.bind_some, tailDone]⟩

theorem dropClient_total (noInternal : pager.NoInternalElsewhere)
    (pagesDrop : ∀ number, ∃ after,
      (pager.view number).dropLocks client (results number) = some after) :
    ∃ next, pager.dropClient client results = some next := by
  rcases forEach_dropLocks_total pager.outstandingLocks.keys_nodup noInternal
    fun number _ => pagesDrop number with ⟨dropped, loopDone⟩
  rw [dropClient, loopDone]
  exact ⟨_, rfl⟩

end Pager

/-- The conditions under which no assert fails. -/
def Spot.Steady (page : Page) (input : PageInput) (_ : PageCallbacks) : Prop :=
  ¬page.Unbalances input ∧ HandsOffSafely page input ∧ ¬page.CompletesGranted input

theorem Link.Gone.not_reads {link : Link} (gone : link.Gone) : ¬link.Reads := by
  rintro (⟨copy, holds, -⟩ | ⟨data, precious, supplied⟩ | unlocking)
  · rw [gone.copy] at holds
    cases holds
  · rw [gone.down] at supplied
    cases supplied
  · rw [gone.up] at unlocking
    cases unlocking

namespace Spot

variable {spot next : Spot}

/-- Whoever reads a page reads one that is not granted for writing. -/
structure Guarded (spot : Spot) : Prop where
  sound : spot.Sound
  exclusive : spot.page.Exclusive
  reads : ∀ client, (spot.links client).Reads → spot.page.entry.writeAccessGranted = false

theorem Guarded.reads_after (guarded : spot.Guarded) (nothingSent : spot.page.sent = [])
    {after : Page} {data : ℕ} {written : List Gift} {again : Prop}
    (transfer : spot.page.Transfer data written again after)
    (wrote : ∀ gift ∈ written, ∃ data, gift = .write data) {links : MachPort → Link}
    (follows : spot.Follows after links)
    (fits : ∀ other, (links other).Fits { after with sent := [] } other) (other : MachPort)
    (reads : (links other).Reads) : after.entry.writeAccessGranted = false := by
  rcases follows other with gone | ⟨known, rest, linkEq, fewer⟩
  · exact absurd reads gone.not_reads
  · have sound := (fits other).sound known
    rw [linkEq] at reads sound
    exact Link.Reads.not_granted transfer wrote nothingSent sound fewer (guarded.reads other)
      reads

/-- A kernel changes its side of the page. -/
theorem Guarded.update (guarded : spot.Guarded) {client : MachPort} {link : Link} {newest : ℕ}
    (nextSound : Spot.Sound { spot with
      links := Function.update spot.links client link, newest })
    (reads : link.Reads → (spot.links client).Reads) :
    Spot.Guarded { spot with links := Function.update spot.links client link, newest } := by
  refine ⟨nextSound, guarded.exclusive, ?_⟩
  intro other
  by_cases same : other = client
  · subst same
    simp only [Function.update_self]
    exact fun nowReads => guarded.reads other (reads nowReads)
  · simp only [Function.update_of_ne same]
    exact guarded.reads other

/-- Every step keeps readers to pages that are not granted for writing. -/
theorem Guarded.step (idle : spot.Idle) (guarded : spot.Guarded)
    (stepped : Step Steady spot next) : next.Guarded := by
  have nextSound := guarded.sound.step idle (stepped.imp fun input results steady => steady.1)
  cases stepped with
  | still => exact guarded
  | act alive acted =>
      rename_i client act page reports
      have sound := (guarded.sound.fits client).sound
        ((guarded.sound.fits client).not_dropped_of_alive alive)
      exact guarded.update nextSound fun reads => reads.of_act sound acted
  | receive alive first => exact guarded.update nextSound fun reads => reads.of_receive first
  | die alive =>
      apply guarded.update nextSound
      rintro (⟨copy, holds, -⟩ | reads)
      · cases holds
      · exact Or.inr reads
  | handle first asks reads isAllowed handled =>
      rename_i client report rest input results after
      have exclusive : after.Exclusive := by
        apply Page.exclusive_handle guarded.exclusive ?_ handled
        rintro returner data any rfl
        exact isAllowed.2.1 rfl
      rcases guarded.sound.transfer idle guarded.exclusive asks isAllowed.2.1 handled with
        ⟨transfer, -⟩
      refine ⟨nextSound, ⟨exclusive.granted, nofun⟩, ?_⟩
      exact guarded.reads_after idle.nothingSent transfer Report.writes_isWrite
        (guarded.sound.follows_handle first after) nextSound.fits
  | drop dead known nothing reads isAllowed handled =>
      rename_i client results after
      have exclusive : after.Exclusive :=
        Page.exclusive_handle guarded.exclusive (fun _ _ _ same => by cases same) handled
      have result : spot.page.Transfer results.read.buffer [] False after ∧ _ :=
        Page.transfer_dropClient guarded.sound.orderly idle.running guarded.exclusive handled
      refine ⟨nextSound, ⟨exclusive.granted, nofun⟩, ?_⟩
      exact guarded.reads_after idle.nothingSent result.1 nofun
        (guarded.sound.follows_drop dead nothing after) nextSound.fits

end Spot

namespace System

variable {system : System}

theorem create_guarded (pageSize : ℕ) (pageSize_pos : 0 < pageSize) (mayCache : Bool)
    (copyStrategy : ℕ) (notifyOnEvict : Bool) (number : ℕ) :
    ((create pageSize pageSize_pos mayCache copyStrategy notifyOnEvict).spot number).Guarded := by
  have gone : ∀ client, Link.Gone
      (((create pageSize pageSize_pos mayCache copyStrategy notifyOnEvict).spot number).links
        client) := fun _ => ⟨rfl, rfl, rfl⟩
  refine ⟨create_sound pageSize pageSize_pos mayCache copyStrategy notifyOnEvict number,
    ⟨nofun, nofun⟩, ?_⟩
  exact fun client reads => absurd reads (gone client).not_reads

/-- The pager can handle the next report of a kernel. -/
theorem handle_report_total {client : MachPort} {number : ℕ} {report : Report}
    {rest : List (ℕ × Report)} (results : Callbacks) (idle : system.Idle)
    (guarded : (system.spot number).Guarded)
    (queue : (system.kernels client).up = (number, report) :: rest)
    (steady : ∀ pageInput, system.pager.Reaches
      (report.input client number system.pager.pageSize) number pageInput →
      ¬(system.pager.page number).CompletesGranted pageInput) :
    ∃ pager, system.pager.handle
      (report.input client number system.pager.pageSize, results) = some pager := by
  have aligned : number * system.pager.pageSize % system.pager.pageSize = 0 := Nat.mul_mod_left _ _
  have divided : number * system.pager.pageSize / system.pager.pageSize = number :=
    Nat.mul_div_cancel _ system.pager.pageSize_pos
  have first : ((system.spot number).links client).up = report :: about number rest := by
    rw [← about_cons_self, ← queue]
    rfl
  have firstMem : report ∈ ((system.spot number).links client).up := by
    rw [first]
    exact List.mem_cons_self
  have known := (guarded.sound.fits client).not_dropped (by rw [first]; nofun)
  have sound := (guarded.sound.fits client).sound known
  cases report with
  | request write =>
      have reaches : system.pager.Reaches (.dataRequest client (number * system.pager.pageSize)
          system.pager.pageSize (if write then vmProtRead ||| vmProtWrite else vmProtRead)) _ _ :=
        .dataRequest idle.running aligned
      rw [divided, Pager.wantsWrite_access] at reaches
      rcases Page.dataRequest_total (results number) (idle.notPagingout number)
        (steady _ reaches) with ⟨after, requested⟩
      have total : ∃ pager, ({ system.pager with sent := [] } : Pager).onPage number
          (fun page => page.dataRequest client write (results number)) = some pager :=
        ⟨_, congrArg (Option.map _) requested⟩
      simpa [Report.input, Pager.handle, Pager.dataRequest, idle.running, divided,
        Pager.wantsWrite_access] using total
  | unlock =>
      have notGranted := guarded.reads client (Or.inr (Or.inr firstMem))
      rcases Page.dataUnlock_total true [] (results number) (sound.unlocks firstMem).1 notGranted
        (idle.notPagingout number) with ⟨after, unlocked⟩
      have viewUnlocked : (({ system.pager with sent := [] } : Pager).view number).dataUnlock
          client true [] (results number) = some after := unlocked
      exact Pager.dataUnlock_total (by exact idle.running) viewUnlocked
  | giveBack version dirty =>
      rcases Page.dataReturn_total client version dirty (results number)
        guarded.sound.orderly with ⟨after, returned⟩
      have viewReturned : (({ system.pager with sent := [] } : Pager).view number).dataReturn
          client version dirty false false (results number) = some after := returned
      exact Pager.dataReturn_total (by exact idle.quiet.writewait) viewReturned
  | lockCompleted =>
      have counted := sound.counted
      rw [first, List.count_cons_self] at counted
      cases found : (system.pager.page number).lock? client with
      | none =>
          rw [Page.lockCount, show (system.spot number).page.lock? client = none from found]
            at counted
          simp at counted
      | some record =>
          rw [Page.lockCount, show (system.spot number).page.lock? client = some record from found]
            at counted
          rcases Page.lockCompleted_total (results number) found (by
            simp at counted
            omega) (steady _ .lockCompleted) with ⟨after, answered⟩
          have viewAnswered : (({ system.pager with sent := [] } : Pager).view number).lockCompleted
              client (results number) = some after := answered
          exact Pager.lockCompleted_total viewAnswered

/-- With kernels that keep to the protocol no assert of the pager fails. -/
theorem not_aborts_of_reachable {pageSize : ℕ} (pageSize_pos : 0 < pageSize) (mayCache : Bool)
    (copyStrategy : ℕ) (notifyOnEvict : Bool) {system : System}
    (reached : Transition.Reachable step (Allows Spot.Steady)
      (create pageSize pageSize_pos mayCache copyStrategy notifyOnEvict) system)
    {action : Action} (allows : system.Allows Spot.Steady action) : ¬system.Aborts action := by
  rcases invariant_of_reachable Spot.Guarded
    (fun number => create_guarded pageSize pageSize_pos mayCache copyStrategy notifyOnEvict number)
    Spot.Guarded.step reached with ⟨idle, guarded⟩
  rintro ⟨input, incoming, failed⟩
  have steps := allows input incoming
  cases action with
  | init client =>
      cases incoming
      simp only [Pager.handle, Pager.objectInit, ne_eq, not_true_eq_false, if_false] at failed
      split_ifs at failed
  | handle client results =>
      simp only [incoming?] at incoming
      cases queue : (system.kernels client).up with
      | nil =>
          rw [queue] at incoming
          cases incoming
      | cons entry rest =>
          rcases entry with ⟨number, report⟩
          rw [queue] at incoming
          cases incoming
          rcases handle_report_total (system.callbacks results) idle (guarded number) queue
            (fun pageInput reaches => (steps number pageInput reaches).2.2) with ⟨pager, handled⟩
          rw [handled] at failed
          cases failed
  | notice client results =>
      simp only [incoming?, Option.ite_none_right_eq_some, Option.some_inj] at incoming
      rcases incoming with ⟨-, rfl⟩
      have total : ∃ pager, ({ system.pager with sent := [] } : Pager).dropClient client
          (system.callbacks results) = some pager := by
        apply Pager.dropClient_total (by exact idle.quiet.noInternalElsewhere)
        exact fun number => Page.dropLocks_total _ (steps number _ (.deadName number)).2.2
      rcases total with ⟨pager, handled⟩
      have handledHere : system.pager.handle (.deadName client, system.callbacks results) =
          some pager := handled
      rw [handledHere] at failed
      cases failed
  | act => cases incoming
  | receive => cases incoming
  | die => cases incoming

/--
A kernel gets a page for writing and does not write it.  When another kernel asks for the
page, the first answers the flush without giving anything back, and the completed lock finds
the page granted for writing.
-/
def cleanWriterRun : List Action :=
  [.act 1 0 (.request true), .handle 1 fun _ => {}, .receive 1, .act 2 0 (.request false),
    .handle 2 fun _ => {}, .receive 1]

theorem cleanWriterRun_aborts :
    ∃ system, Transition.run step cleanWriterRun (create 1 (by decide) false 0 false) =
        some system ∧ system.Aborts (.handle 1 fun _ => {}) := by
  refine ⟨_, rfl, _, rfl, rfl⟩

/-- A kernel reads a page and asks to unlock it. -/
def unlockRun : List Action :=
  [.act 1 0 (.request false), .handle 1 fun _ => {}, .receive 1, .act 1 0 .unlock]

theorem not_aborts_after_unlock :
    ∃ system, Transition.run step unlockRun (create 1 (by decide) false 0 false) = some system ∧
      ((system.kernels 1).up ≠ [] ∧ ¬system.Aborts (.handle 1 fun _ => {})) := by
  refine ⟨_, rfl, by decide, not_aborts_of_reachable (show 0 < 1 by decide) false 0 false
    (Transition.Reachable.start.of_run unlockRun ?_ rfl) ?_⟩
  · refine ⟨nofun, ?_⟩
    rintro _ ⟨⟩
    refine ⟨?_, ?_⟩
    · rintro _ ⟨⟩ number pageInput reaches
      cases reaches
      refine ⟨fun twice => absurd twice.2.2.2.1 (by decide), trivial, ?_⟩
      exact fun completes => absurd completes.2.2.2 (by decide)
    rintro _ ⟨⟩
    refine ⟨nofun, ?_⟩
    rintro _ ⟨⟩
    exact ⟨nofun, fun _ _ => trivial⟩
  · rintro _ ⟨⟩ number pageInput reaches
    cases reaches with
    | dataUnlock others _ _ _ pageMem =>
        have onlyPage : number ∈ [0] := pageMem
        have isFirst := List.mem_singleton.mp onlyPage
        subst isFirst
        exact ⟨fun queues => absurd queues.2 (by decide), fun queues => absurd queues.2 (by decide),
          id⟩

end System

end Hurd.Libpager
