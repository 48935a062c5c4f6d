import Hurd.Libpager.Dropped
import Hurd.Libpager.Eviction

/-!
# The errors of failed unlocks

When `pager_unlock_page` fails, the client that has asked for the unlock is flushed, and its error is
kept on `NEXTERROR` until it asks for the page again.  It is meant for a request that wants to write;
`data_request` does not look at what is wanted, and `drop_client` does not look at `NEXTERROR`, so
that whoever comes next under the name of a dropped client finds what was kept for it.
-/

namespace Hurd.Libpager

namespace Page

variable {page next : Page} {client : MachPort} {results : PageCallbacks} {error : KernReturn}

/-- The client that `pager_unlock_page` is called for, where a handler calls it -/
def unlocker? (page : Page) : PageInput → Option MachPort
  | .dataUnlock client _ _ => some client
  | _ => page.entry.waitlist.head?.map (·.client)

/-- What a handler does to the errors that are kept for the clients of a page -/
inductive ErrorsChange (page : Page) (input : PageInput) (results : PageCallbacks) (next : Page) : Prop
  | same (noError : ∀ client write, input = .dataRequest client write →
        takeNexterror client page.nexterror = none)
      (isSame : next.nexterror = page.nexterror)
  | taken (client : MachPort) (write : Bool) (isRequest : input = .dataRequest client write)
      (found : NexterrorEntry) (rest : List NexterrorEntry)
      (isTaken : takeNexterror client page.nexterror = some (found, rest))
      (isRest : next.nexterror = rest)
  | added (noError : ∀ client write, input = .dataRequest client write →
        takeNexterror client page.nexterror = none)
      (client : MachPort) (isUnlocker : page.unlocker? input = some client)
      (failed : results.unlock ≠ kernSuccess)
      (isNext : next.nexterror = page.nexterror ++ [⟨client, results.unlock⟩])
  | cleared (client : MachPort) (data : ℕ) (dirty any : Bool)
      (isReturn : input = .dataReturn client data dirty false any)
      (noneWaiting : dirty = true → page.stillWaiting client = [])
      (nobody : dirty = false → page.LeavesNobody client) (gone : next.nexterror = [])

theorem serviceWaitlist_nexterror {data : ℕ} {allowWriteAccess deallocate : Bool}
    (served : page.serviceWaitlist data allowWriteAccess deallocate = some next) :
    next.nexterror = page.nexterror := by
  rcases serviceWaitlist_cases served with ⟨-, rfl⟩ | ⟨first, rest, -, -, rfl⟩
  · rfl
  · rw [flushForWaiting_nexterror]
    exact (serveFirst_frame _ _ _ _ _ _).2.1

theorem finishPagein_nexterror {result : ReadResult}
    (disjoint : ∀ client ∈ waitingClients page.entry.waitlist, client ∉ page.entry.accesslist)
    (finished : page.finishPagein result = some next) : next.nexterror = page.nexterror := by
  rcases finishPagein_cases finished with ⟨-, served⟩ | ⟨-, rfl⟩
  · have kept := serviceWaitlist_nexterror served
    exact kept
  · exact (sendErrorToWaitlist_of_disjoint (page.setError result.error) disjoint).2

/-- The errors are as they were, or the first client that waits has got a new one. -/
def AddsForFirst (results : PageCallbacks) (page next : Page) : Prop :=
  next.nexterror = page.nexterror ∨
    ∃ first rest, page.entry.waitlist = first :: rest ∧ results.unlock ≠ kernSuccess ∧
      next.nexterror = page.nexterror ++ [⟨first.client, results.unlock⟩]

theorem addsForFirst_finalizeUnlock (finished : page.finalizeUnlock results.unlock = some next) :
    AddsForFirst results page next := by
  cases finalizeUnlock_cases finished with
  | granted first rest _ _ nextEq =>
      refine .inl ?_
      rw [nextEq, flushEach_nexterror]
      rfl
  | failed first rest waiting failed nextEq =>
      exact .inr ⟨first, rest, waiting, failed, by rw [nextEq]⟩

theorem addsForFirst_internalLockCompleted
    (completed : page.internalLockCompleted client results = some next) :
    AddsForFirst results page next := by
  cases internalLockCompleted_cases completed with
  | terminating _ nextEq => exact .inl (by rw [nextEq])
  | idle _ _ _ nextEq => exact .inl (by rw [nextEq])
  | others _ _ _ _ _ nextEq =>
      refine .inl ?_
      rw [nextEq]
      rfl
  | refuse _ _ _ _ lastOne _ nextEq =>
      refine .inl ?_
      rw [nextEq]
      apply (sendErrorToWaitlist_of_disjoint (page.removeFromAccesslist client) _).2
      exact fun other _ => OrdSet.isEmpty_iff.mp lastOne other
  | pagein _ _ _ _ lastOne _ finished =>
      have kept := finishPagein_nexterror
        (fun other _ => OrdSet.isEmpty_iff.mp lastOne other) finished
      exact .inl kept
  | unlock _ _ _ _ _ _ _ _ finished =>
      have adds := addsForFirst_finalizeUnlock finished
      exact adds

/-- The errors of a page after `data_request` -/
theorem dataRequest_errorsChange {write : Bool}
    (requested : page.dataRequest client write results = some next) :
    ErrorsChange page (.dataRequest client write) results next := by
  have none : takeNexterror client page.nexterror = none →
      ∀ other otherWrite, PageInput.dataRequest client write = .dataRequest other otherWrite →
        takeNexterror other page.nexterror = none := by
    rintro noError _ _ ⟨⟩
    exact noError
  have left : (page.leaveForRequest client).nexterror = page.nexterror := by
    unfold leaveForRequest
    split_ifs <;> rfl
  cases dataRequest_cases requested with
  | error found rest taken nextEq =>
      exact .taken client write rfl found rest taken (by rw [nextEq])
  | held _ noError nextEq =>
      refine .same (none noError) ?_
      rw [nextEq]
      exact flushEach_nexterror _ _
  | completed noError _ waiting finished =>
      rcases addsForFirst_internalLockCompleted finished with isSame | ⟨first, rest, isList, failed, isNext⟩
      · exact .same (none noError) isSame
      · refine .added (none noError) first.client ?_ failed isNext
        have isHead : page.entry.waitlist.head? = some first := by
          rw [← List.head?_append_of_ne_nil page.entry.waitlist waiting]
          exact congrArg List.head? isList
        simp [unlocker?, isHead]
  | waits noError _ _ nextEq =>
      refine .same (none noError) ?_
      rw [nextEq]
      rfl
  | revokes noError _ _ nextEq =>
      refine .same (none noError) ?_
      rw [nextEq, flushEach_nexterror]
      exact left
  | pagein _ noError noneWaiting _ _ finished =>
      have told : ((page.leaveForRequest client).tellInvalid client).entry =
          (page.leaveForRequest client).entry ∧
          ((page.leaveForRequest client).tellInvalid client).nexterror = page.nexterror := by
        unfold tellInvalid
        split_ifs <;> exact ⟨rfl, left⟩
      have gone : client ∉ (page.leaveForRequest client).entry.accesslist := by
        unfold leaveForRequest
        split_ifs with listed
        · simp [removeFromAccesslist, setWriteAccessGranted]
        · exact listed
      have kept := finishPagein_nexterror (by
        simp [addToWaitlist, send, told.1, leaveForRequest_waitlist, noneWaiting, waitingClients,
          gone]) finished
      exact .same (none noError) (kept.trans told.2)

theorem handedOff_nexterror {data : ℕ} {dirty kernelCopy : Bool} {flags : ReturnFlags}
    (handedOff : HandedOff page client data dirty kernelCopy next flags) :
    next.nexterror = page.nexterror ∨
      dirty = false ∧ kernelCopy = false ∧ page.LeavesNobody client ∧ next.nexterror = [] := by
  rcases page.leaveForReturn_frame client with ⟨-, -, -, left, -⟩
  cases handedOff with
  | keeps _ nextEq => exact .inl (by rw [nextEq])
  | serves _ _ _ served => exact .inl ((serviceWaitlist_nexterror served).trans left)
  | unlocks _ _ _ _ _ _ _ _ nextEq => exact .inl (by rw [nextEq, left])
  | evicts given clean nobodyLeft noneWaiting nextEq =>
      exact .inr ⟨clean, given, ⟨nobodyLeft, noneWaiting⟩, by rw [nextEq]; rfl⟩
  | leaves _ _ nextEq => exact .inl (by rw [nextEq, left])

/-- The errors of a page after `data_return` -/
theorem dataReturn_errorsChange {data : ℕ} {dirty kernelCopy any : Bool}
    (returned : page.dataReturn client data dirty kernelCopy any results = some next) :
    ErrorsChange page (.dataReturn client data dirty kernelCopy any) results next := by
  rcases page.leaveForReturn_frame client with ⟨sameWaitlist, -, -, left, -⟩
  cases dataReturn_cases returned with
  | clean isClean handed flags handedOff _ notified =>
      rcases handedOff_nexterror handedOff with isSame | ⟨-, rfl, nobody, gone⟩
      · exact .same nofun (notified.nexterror.trans isSame)
      · refine .cleared client data dirty any rfl ?_ (fun _ => nobody) (notified.nexterror.trans gone)
        simp [isClean]
  | unlocks isClean handed notified flags handedOff unlocking notifies finished =>
      have handedEq : handed = page.leaveForReturn client := by
        cases handedOff with
        | keeps _ _ flagsEq => simp [flagsEq] at unlocking
        | serves _ _ _ _ flagsEq => simp [flagsEq] at unlocking
        | evicts _ _ _ _ _ flagsEq => simp [flagsEq] at unlocking
        | leaves _ _ _ flagsEq => simp [flagsEq] at unlocking
        | unlocks _ _ _ _ _ _ _ _ nextEq => exact nextEq
      have sameErrors : notified.nexterror = page.nexterror :=
        notifies.nexterror.trans ((congrArg Page.nexterror handedEq).trans left)
      have sameList : notified.entry.waitlist = page.entry.waitlist := by
        rw [notifies.entry, handedEq]
        exact sameWaitlist
      rcases addsForFirst_finalizeUnlock finished with isSame | ⟨first, rest, isList, failed, isNext⟩
      · exact .same nofun (isSame.trans sameErrors)
      · refine .added nofun first.client ?_ failed (sameErrors ▸ isNext)
        simp [unlocker?, ← sameList, isList]
  | keeps _ _ nextEq =>
      refine .same nofun ?_
      rw [nextEq]
      exact (page.written_frame data results.write).2.2.2.2.1
  | serves isDirty _ handed handedOff _ served =>
      rcases handedOff_nexterror handedOff with isSame | ⟨isClean, -⟩
      · refine .same nofun ((serviceWaitlist_nexterror served).trans ?_)
        exact (handed.written_frame data results.write).2.2.2.2.1.trans isSame
      · simp [isDirty] at isClean
  | evicts isDirty given handed handedOff noneWaiting notified =>
      subst isDirty given
      refine .cleared client data true any rfl (fun _ => ?_) nofun notified.nexterror
      rw [← handedOff_stillWaiting handedOff]
      exact noneWaiting

/-- The errors of a page after a handler -/
theorem handle_errorsChange {input : PageInput}
    (handled : page.handle input results = some next) : ErrorsChange page input results next := by
  have ofCompletion : ∀ {client dropped}, (∀ other write, input ≠ .dataRequest other write) →
      (∀ other first others, input ≠ .dataUnlock other first others) →
      (page.forget client).internalLockCompleted client results = some dropped →
      next.nexterror = dropped.nexterror → ErrorsChange page input results next := by
    intro client dropped notRequest notUnlock completed isSame
    have isUnlocker : page.unlocker? input = page.entry.waitlist.head?.map (·.client) := by
      cases input with
      | dataUnlock => exact (notUnlock _ _ _ rfl).elim
      | _ => rfl
    have none : ∀ other write, input = .dataRequest other write →
        takeNexterror other page.nexterror = none := fun _ _ isRequest =>
      (notRequest _ _ isRequest).elim
    rcases addsForFirst_internalLockCompleted completed with kept | ⟨first, rest, isList, failed, isNext⟩
    · exact .same none (isSame.trans kept)
    · refine .added none first.client ?_ failed (isSame.trans isNext)
      have sameList : page.entry.waitlist = first :: rest := isList
      simp [isUnlocker, sameList]
  cases input with
  | dataRequest client write => exact dataRequest_errorsChange handled
  | dataUnlock client first others =>
      cases dataUnlock_cases handled with
      | ignored _ _ nextEq => exact .same (by simp) (by rw [nextEq, flushEach_nexterror])
      | queued _ _ _ _ nextEq =>
          refine .same (by simp) ?_
          rw [nextEq, flushEach_nexterror]
          rfl
      | revokes _ _ _ _ nextEq =>
          refine .same (by simp) ?_
          rw [nextEq, flushEach_nexterror]
          rfl
      | alone _ _ noneWaiting _ finished =>
          have sameErrors : (((page.addToWaitlist client true).flushEach
              (if first then others else [])).send .unlockPage).nexterror = page.nexterror :=
            flushEach_nexterror _ _
          have isOnly : (((page.addToWaitlist client true).flushEach
              (if first then others else [])).send .unlockPage).entry.waitlist = [⟨client, true⟩] := by
            simp [send, addToWaitlist, noneWaiting]
          rcases addsForFirst_finalizeUnlock finished with isSame | ⟨waiting, rest, isList, failed, isNext⟩
          · exact .same (by simp) (isSame.trans sameErrors)
          · rw [isOnly] at isList
            cases isList
            exact .added (by simp) client rfl failed (sameErrors ▸ isNext)
  | dataReturn client data dirty kernelCopy any => exact dataReturn_errorsChange handled
  | dataReturnUnmatched client data kernelCopy =>
      rcases dataReturnUnmatched_cases handled with ⟨handed, handedOff, rfl⟩
      rcases handedOff_nexterror handedOff with isSame | ⟨isClean, -⟩
      · exact .same (by simp) isSame
      · cases isClean
  | lockCompleted client =>
      cases lockCompleted_cases handled with
      | counted record _ _ nextEq =>
          refine .same (by simp) ?_
          rw [nextEq]
          rfl
      | external record _ _ _ nextEq =>
          refine .same (by simp) ?_
          rw [nextEq]
          rfl
      | internal record _ _ _ finished => exact ofCompletion (by simp) (by simp) finished rfl
  | dropClient control =>
      rcases Option.map_eq_some_iff.mp handled with ⟨dropped, isDropped, rfl⟩
      have kept : (dropped.dropClient control).nexterror = dropped.nexterror := by
        unfold dropClient
        split_ifs <;> rfl
      rcases dropLocks_cases isDropped with ⟨record, -, -, finished⟩ | ⟨-, rfl⟩
      · exact ofCompletion (by simp) (by simp) finished kept
      · exact .same (by simp) kept
  | lockObject clients =>
      cases handled
      refine .same (by simp) ?_
      have counted : ∀ (clients : List MachPort) (page : Page),
          (clients.foldl countLock page).nexterror = page.nexterror := by
        intro clients
        induction clients with
        | nil => exact fun _ => rfl
        | cons client rest ih => exact fun page => ih (page.countLock client)
      exact counted clients page
  | shutdown =>
      cases handled
      exact .same (by simp) rfl

/-- No client has two errors for the page. -/
def ErrorsDistinct (page : Page) : Prop := (page.nexterror.map NexterrorEntry.client).Nodup

/-- An unlock fails only for a client without an error, and no page is evicted that somebody has. -/
def Spares (page : Page) (results : PageCallbacks) (input : PageInput) : Prop :=
  (∀ client, page.unlocker? input = some client → results.unlock ≠ kernSuccess →
      ∀ entry ∈ page.nexterror, entry.client ≠ client) ∧
    ∀ client data any, input = .dataReturn client data true false any →
      page.stillWaiting client = [] → page.LeavesNobody client ∨ page.nexterror = []

theorem errorsDistinct_handle {input : PageInput}
    (distinct : page.ErrorsDistinct) (spares : page.Spares results input)
    (handled : page.handle input results = some next) : next.ErrorsDistinct := by
  unfold ErrorsDistinct at *
  cases handle_errorsChange handled with
  | same _ isSame =>
      rw [isSame]
      exact distinct
  | taken client write _ found rest isTaken isRest =>
      rcases takeNexterror_split isTaken with ⟨before, after, isList, rfl, -⟩
      rw [isRest]
      refine distinct.sublist (List.Sublist.map _ ?_)
      rw [isList]
      exact (List.Sublist.refl before).append (List.sublist_cons_self _ _)
  | added _ client isUnlocker failed isNext =>
      rw [isNext, List.map_append, List.nodup_append]
      refine ⟨distinct, List.nodup_singleton _, ?_⟩
      intro other isOther own isOwn
      rcases List.mem_map.mp isOther with ⟨entry, isEntry, rfl⟩
      have isClient : own = client := List.mem_singleton.mp isOwn
      rw [isClient]
      exact spares.1 client isUnlocker failed entry isEntry
  | cleared _ _ _ _ _ _ _ gone =>
      rw [gone]
      exact List.nodup_nil

end Page

/-- The client that an input takes away -/
def Input.drops : Input → Option MachPort
  | .objectTerminate control => some control
  | .deadName control => some control
  | _ => none

namespace Pager

/-- An error is kept for the client of the page. -/
def keepsError (pager : Pager) (number : ℕ) (client : MachPort) : Bool :=
  (pager.nexterror number).any (·.client = client)

end Pager

/-- A pager, and the clients that have been dropped while an error was kept for them -/
structure ErrorLog where
  pager : Pager
  left : ℕ → MachPort → Bool := fun _ _ => false

namespace ErrorLog

def step (log : ErrorLog) (input : Input × Callbacks) : Option ErrorLog :=
  (log.pager.handle input).map fun next =>
    { pager := next
      left := fun number client => next.keepsError number client &&
        (log.left number client || decide (input.1.drops = some client)) }

/-- An error is kept for the client of the page, who has not been dropped since. -/
structure Holds (number : ℕ) (client : MachPort) (error : KernReturn) (log : ErrorLog) : Prop where
  kept : ⟨client, error⟩ ∈ log.pager.nexterror number
  present : log.left number client = false

/--
A client for which an error is kept asks for the page to write to it only, before the pager is shut
down, and has not been dropped since; an unlock does not fail for it again; and a page for which
errors are kept is not evicted by the write of a page that somebody has.
-/
structure Spares (log : ErrorLog) (input : Input × Callbacks) : Prop where
  requests : ∀ client offset length access, input.1 = .dataRequest client offset length access →
    log.pager.keepsError (offset / log.pager.pageSize) client = true →
      wantsWrite access = true ∧ log.pager.terminating = false ∧
        log.left (offset / log.pager.pageSize) client = false
  pages : ∀ number pageInput, log.pager.Reaches input.1 number pageInput →
    (log.pager.page number).Spares (input.2 number) pageInput

/-- What holds between two handlers -/
structure Orderly (log : ErrorLog) : Prop where
  quiet : log.pager.Quiet
  distinct : ∀ number, (log.pager.page number).ErrorsDistinct

theorem Orderly.step {log next : ErrorLog} {input : Input × Callbacks} (orderly : log.Orderly)
    (spares : log.Spares input) (taken : log.step input = some next) : next.Orderly := by
  rcases Option.map_eq_some_iff.mp taken with ⟨pager, handled, rfl⟩
  rcases Pager.handle_view orderly.quiet handled with ⟨quiet, -, -, projects⟩
  refine ⟨quiet, ?_⟩
  intro number
  rcases projects number with same | ⟨pageInput, reached, pageHandled⟩
  · have sameErrors : pager.nexterror number = log.pager.nexterror number :=
      congrArg Page.nexterror same
    have distinct : ((log.pager.nexterror number).map NexterrorEntry.client).Nodup :=
      orderly.distinct number
    rw [← sameErrors] at distinct
    exact distinct
  · have distinct := Page.errorsDistinct_handle (orderly.distinct number)
      (spares.pages number pageInput reached) pageHandled
    exact distinct

theorem Orderly.run {before after : List (Input × Callbacks)} {log next : ErrorLog}
    (orderly : log.Orderly) (allowed : Transition.AllowedRun ErrorLog.step Spares (before ++ after) log)
    (ran : Transition.run ErrorLog.step before log = some next) :
    next.Orderly ∧ Transition.AllowedRun ErrorLog.step Spares after next := by
  induction before generalizing log with
  | nil =>
      cases ran
      exact ⟨orderly, allowed⟩
  | cons input rest ih =>
      rcases Option.bind_eq_some_iff.mp ran with ⟨middle, taken, ran⟩
      exact ih (orderly.step allowed.1 taken) (allowed.2 middle taken) ran

end ErrorLog

end Hurd.Libpager
