import Hurd.Libpager.Errors

/-!
# A failed write is remembered

When `pager_write_page` fails, the page becomes invalid and keeps the error, so that nobody is given
what the backing store had before.  An eviction clears both, even when the write that has just failed
is the reason for it, and `data_request` goes on to read a page that it has found invalid.  A
request for a page that a return has left `PAGINGOUT` without writing it is not answered at all.
-/

namespace Hurd.Libpager

namespace Page

/-- The page remembers that a write failed. -/
structure Remembers (page : Page) (error : KernReturn) : Prop where
  invalid : page.entry.invalid = true
  error : page.entry.error = error

/-- The result of the last write, if it failed -/
def Failed (lastWrite : Option KernReturn) (error : KernReturn) : Prop :=
  lastWrite = some error ∧ error ≠ kernSuccess

/-- Nobody has the page, nor waits for it. -/
def Abandoned (page : Page) : Prop :=
  page.entry.accesslist.isEmpty = true ∧ page.entry.waitlist = [] ∧
    page.entry.writeAccessGranted = false

/--
A request finds the error of the last write wherever it looks, and does not wait for a page out
of a page that nobody has.
-/
def AnswersWith (page : Page) (client : MachPort) (write : Bool) (results : PageCallbacks)
    (error : KernReturn) : Prop :=
  match takeNexterror client page.nexterror with
  | some (found, _) => page.entry.accesslist.isEmpty = true → found.error = error
  | none => (page.Abandoned → page.entry.pagingout = false) ∧
      (page.PagesIn client write → results.read.error = error)

/-- What the handlers must not do for the error of the last write to be kept. -/
def KeepsFailure (page : Page) (lastWrite : Option KernReturn) (results : PageCallbacks) :
    PageInput → Prop
  | .dataRequest client write =>
      ∀ error, Failed lastWrite error → page.AnswersWith client write results error
  | .dataReturn client _ false false _ =>
      page.LeavesNobody client → ∀ error, ¬Failed lastWrite error
  | .dataReturn client _ true false _ =>
      page.stillWaiting client = [] → results.write = kernSuccess
  | _ => True

/-- The handler has called `pager_write_page`. -/
def Wrote (page : Page) : Prop := ∃ data, .writePage data ∈ page.sent

section Handlers

variable {page next : Page} {client : MachPort} {results : PageCallbacks} {error : KernReturn}
  {lastWrite : Option KernReturn}

theorem Reports.not_wrote (reports : Reports error page next) (nothing : page.sent = []) :
    ¬next.Wrote := by
  rintro ⟨data, isWrite⟩
  rcases reports.sends.forall nothing _ isWrite with isSilent | ⟨_, isError⟩
  · cases isSilent
  · cases isError

theorem Reports.remembers (reports : Reports error page next) (before : page.Remembers error) :
    next.Remembers error :=
  ⟨reports.invalid.trans before.invalid, reports.error⟩

theorem Keeps.remembers (keeps : Keeps page next) (before : page.Remembers error) :
    next.Remembers error :=
  ⟨keeps.invalid.trans before.invalid, keeps.error.trans before.error⟩

theorem Keeps.not_wrote (keeps : Keeps page next) (nothing : page.sent = []) : ¬next.Wrote :=
  keeps.reports.not_wrote nothing

/-- The page remembers the result of the last write, whether the handler has made it or not. -/
structure RemembersAfter (results : PageCallbacks) (lastWrite : Option KernReturn) (page : Page) :
    Prop where
  written : page.Wrote → results.write ≠ kernSuccess → page.Remembers results.write
  kept : ¬page.Wrote → ∀ error, Failed lastWrite error → page.Remembers error

theorem RemembersAfter.of_kept (notWrote : ¬next.Wrote)
    (kept : ∀ error, Failed lastWrite error → next.Remembers error) :
    RemembersAfter results lastWrite next :=
  ⟨fun wrote => absurd wrote notWrote, fun _ => kept⟩

theorem Keeps.remembersAfter (keeps : Keeps page next) (nothing : page.sent = [])
    (before : ∀ error, Failed lastWrite error → page.Remembers error) :
    RemembersAfter results lastWrite next :=
  .of_kept (keeps.not_wrote nothing) fun error failed => keeps.remembers (before error failed)

/-- An invalid page is not read, so that `internal_lock_completed` keeps its error. -/
theorem remembersAfter_internalLockCompleted {middle : Page} (keeps : Keeps page middle)
    (nothing : page.sent = []) (before : ∀ error, Failed lastWrite error → page.Remembers error)
    (completed : middle.internalLockCompleted client results = some next) :
    RemembersAfter results lastWrite next := by
  rcases internalLockCompleted_reports completed with reports | ⟨valid, reports⟩
  · refine .of_kept ((reports.after keeps).not_wrote nothing) ?_
    intro error failed
    have still := keeps.remembers (before error failed)
    rw [still.error] at reports
    exact reports.remembers still
  · refine .of_kept ((reports.after keeps).not_wrote nothing) ?_
    intro error failed
    have still := (keeps.remembers (before error failed)).invalid
    rw [valid] at still
    cases still

theorem remembersAfter_dataRequest {write : Bool} (nothing : page.sent = [])
    (before : ∀ error, Failed lastWrite error → page.Remembers error)
    (answers : ∀ error, Failed lastWrite error → page.AnswersWith client write results error)
    (requested : page.dataRequest client write results = some next) :
    RemembersAfter results lastWrite next := by
  cases dataRequest_cases requested with
  | error found rest taken nextEq =>
      rw [nextEq]
      refine .of_kept ?_ ?_
      · rintro ⟨data, isWrite⟩
        simp [send, nothing] at isWrite
      · intro error failed
        exact ⟨(before error failed).invalid, (before error failed).error⟩
  | held _ _ nextEq =>
      rw [nextEq]
      exact ((page.keeps_flushEach _).trans (keeps_addToWaitlist _ client write)).remembersAfter
        nothing before
  | completed _ _ _ finished =>
      exact remembersAfter_internalLockCompleted (page.keeps_addToWaitlist client write) nothing
        before finished
  | waits _ _ _ nextEq =>
      rw [nextEq]
      exact (page.keeps_addToWaitlist client write).remembersAfter nothing before
  | revokes _ _ _ nextEq =>
      rw [nextEq]
      exact (((page.keeps_leaveForRequest client).trans
        (keeps_addToWaitlist _ client write)).trans (keeps_flushEach _ _)).remembersAfter nothing
          before
  | pagein notPagingout noError noneWaiting notGranted free finished =>
      have left := page.keeps_leaveForRequest client
      have reports := reports_finishPagein finished
      have told : ((page.leaveForRequest client).tellInvalid client).entry =
          (page.leaveForRequest client).entry := by
        unfold tellInvalid
        split_ifs <;> rfl
      refine .of_kept ?_ ?_
      · rintro ⟨data, isWrite⟩
        rcases pagein_sent nothing finished with ⟨events, sent, areKind⟩
        rw [sent, List.mem_append] at isWrite
        rcases isWrite with isFirst | isLater
        · split_ifs at isFirst <;> simp at isFirst
        · rcases areKind _ isLater with isSilent | ⟨_, isError⟩
          · cases isSilent
          · cases isError
      · intro error failed
        have found := answers error failed
        unfold AnswersWith at found
        rw [noError] at found
        rw [found.2 ⟨notPagingout, noneWaiting, notGranted, free⟩] at reports
        refine ⟨reports.invalid.trans ?_, reports.error⟩
        simp only [send, addToWaitlist, told, left.invalid]
        exact (before error failed).invalid

theorem remembersAfter_dataReturn {data : ℕ} {dirty kernelCopy any : Bool}
    (nothing : page.sent = []) (before : ∀ error, Failed lastWrite error → page.Remembers error)
    (keepsFailure : page.KeepsFailure lastWrite results
      (.dataReturn client data dirty kernelCopy any))
    (returned : page.dataReturn client data dirty kernelCopy any results = some next) :
    RemembersAfter results lastWrite next := by
  cases dirty with
  | false =>
      rcases dataReturn_clean returned with keeps | ⟨sends, rfl, nobody⟩
      · exact keeps.remembersAfter nothing before
      · refine .of_kept ?_ ?_
        · rintro ⟨written, isWrite⟩
          cases sends.forall nothing _ isWrite
        · intro error failed
          exact absurd failed (keepsFailure nobody error)
  | true =>
      rcases dataReturn_dirty returned with ⟨-, isWrite, records⟩
      refine ⟨fun _ failed => ?_, fun notWrote => absurd ⟨data, isWrite⟩ notWrote⟩
      have recorded : next.entry.invalid = true ∧ next.entry.error = results.write := by
        apply records failed
        rintro rfl noneWaiting
        exact failed (keepsFailure noneWaiting)
      exact ⟨recorded.1, recorded.2⟩

theorem remembersAfter_handle {input : PageInput} (nothing : page.sent = [])
    (before : ∀ error, Failed lastWrite error → page.Remembers error)
    (keepsFailure : page.KeepsFailure lastWrite results input)
    (handled : page.handle input results = some next) : RemembersAfter results lastWrite next := by
  have forgets : ∀ client, Keeps page (page.forget client) := fun _ => page.keeps_storeLocks _
  cases input with
  | dataRequest client write =>
      exact remembersAfter_dataRequest nothing before keepsFailure handled
  | dataUnlock client first others =>
      exact (keeps_dataUnlock handled).remembersAfter nothing before
  | dataReturn client data dirty kernelCopy any =>
      exact remembersAfter_dataReturn nothing before keepsFailure handled
  | dataReturnUnmatched client data kernelCopy =>
      rcases dataReturnUnmatched_cases handled with ⟨handed, handedOff, rfl⟩
      rcases handedOff_keeps handedOff with keeps | ⟨-, isClean, -⟩
      · have marked : Keeps handed (handed.setPagingout true) := .of_lists rfl rfl rfl
        exact (keeps.trans marked).remembersAfter nothing before
      · cases isClean
  | lockCompleted client =>
      cases lockCompleted_cases handled with
      | counted record _ _ nextEq =>
          rw [nextEq]
          exact (page.keeps_storeLocks _).remembersAfter nothing before
      | external record _ _ _ nextEq =>
          rw [nextEq]
          exact (forgets client).remembersAfter nothing before
      | internal record _ _ _ finished =>
          exact remembersAfter_internalLockCompleted (forgets client) nothing before finished
  | dropClient control =>
      rcases Option.map_eq_some_iff.mp handled with ⟨dropped, isDropped, rfl⟩
      have after : RemembersAfter results lastWrite dropped := by
        rcases dropLocks_cases isDropped with ⟨record, -, -, finished⟩ | ⟨-, rfl⟩
        · exact remembersAfter_internalLockCompleted (forgets control) nothing before finished
        · exact (forgets control).remembersAfter nothing before
      unfold dropClient
      split_ifs
      · exact ⟨fun wrote failed => ⟨(after.written wrote failed).1, (after.written wrote failed).2⟩,
          fun notWrote error failed =>
            ⟨(after.kept notWrote error failed).1, (after.kept notWrote error failed).2⟩⟩
      · exact after
  | lockObject clients =>
      cases handled
      exact (keeps_foldl_countLock clients page).remembersAfter nothing before
  | shutdown =>
      cases handled
      exact page.keeps_shutdown.remembersAfter nothing before

/-- Once nobody has the page, a request is answered with the error of the last write only. -/
theorem dataRequest_answers {write : Bool} (nothing : page.sent = [])
    (remembers : page.Remembers error) (isError : error ≠ kernSuccess)
    (nobody : page.entry.accesslist.isEmpty = true)
    (answers : page.AnswersWith client write results error)
    (requested : page.dataRequest client write results = some next) :
    (∀ event ∈ next.sent, event = .readPage ∨ event = .dataError client error) ∧
      (page.entry.waitlist = [] → page.entry.writeAccessGranted = false →
        .dataError client error ∈ next.sent) := by
  have notListed : client ∉ page.entry.accesslist := OrdSet.isEmpty_iff.mp nobody client
  have stays : page.leaveForRequest client = page := if_neg notListed
  have nobodyFlushed : page.entry.accesslist.toList = [] := by
    rw [List.eq_nil_iff_forall_not_mem]
    exact fun other isMember => OrdSet.isEmpty_iff.mp nobody other isMember
  unfold AnswersWith at answers
  cases dataRequest_cases requested with
  | error found rest taken nextEq =>
      rw [taken] at answers
      have same : found.error = error := answers nobody
      rw [nextEq, same]
      simp [send, nothing]
  | held isPagingout noError nextEq =>
      rw [noError] at answers
      rw [nextEq, nobodyFlushed, ite_self]
      refine ⟨by simp [flushEach, addToWaitlist, nothing], fun noneWaiting notGranted => ?_⟩
      have notPagingout := answers.1 ⟨nobody, noneWaiting, notGranted⟩
      rw [isPagingout] at notPagingout
      cases notPagingout
  | completed _ listed => exact absurd listed notListed
  | waits _ _ waiting nextEq =>
      rw [nextEq]
      simp [addToWaitlist, nothing, waiting]
  | revokes _ _ contended nextEq =>
      rw [stays] at contended nextEq
      have isGranted : page.entry.writeAccessGranted = true := by
        rcases contended with granted | ⟨-, nonempty⟩
        · exact granted
        · simp [nobody] at nonempty
      rw [nextEq, nobodyFlushed]
      simp [flushEach, addToWaitlist, nothing, isGranted]
  | pagein notPagingout noError noneWaiting notGranted free finished =>
      rw [noError] at answers
      have isRead : results.read.error = error :=
        answers.2 ⟨notPagingout, noneWaiting, notGranted, free⟩
      rw [stays, tellInvalid, if_pos remembers.invalid, remembers.error] at finished
      rcases finishPagein_cases finished with ⟨succeeded, -⟩ | ⟨-, nextEq⟩
      · rw [isRead] at succeeded
        exact absurd succeeded isError
      · rw [nextEq, isRead]
        simp [sendErrorToWaitlist, sendErrorTo, setWaitlist, setError, send, addToWaitlist, nothing,
          noneWaiting, notListed]

end Handlers

end Page

/-- A pager, and what the most recently completed `pager_write_page` for each page returned -/
structure WriteLog where
  pager : Pager
  lastWrite : ℕ → Option KernReturn := fun _ => none

namespace WriteLog

/-- The page has been written by the last handler. -/
def wrote (number : ℕ) (sent : List Event) : Bool :=
  sent.any fun
    | .page other (.writePage _) => other = number
    | _ => false

def step (log : WriteLog) (input : Input × Callbacks) : Option WriteLog :=
  (log.pager.handle input).map fun next =>
    { pager := next
      lastWrite := fun number =>
        if wrote number next.sent then some (input.2 number).write else log.lastWrite number }

/-- The most recently completed write of a page has failed. -/
def Failed (log : WriteLog) (number : ℕ) (error : KernReturn) : Prop :=
  Page.Failed (log.lastWrite number) error

/-- Every failed write is remembered. -/
def Remembers (log : WriteLog) : Prop :=
  ∀ number error, log.Failed number error →
    (log.pager.pagemap number).invalid = true ∧ (log.pager.pagemap number).error = error

/--
No page is evicted whose last write has failed, a write that evicts its page succeeds, and a request
for a page whose last write has failed finds no other error.
-/
def KeepsFailures (log : WriteLog) (input : Input × Callbacks) : Prop :=
  ∀ number pageInput, log.pager.Reaches input.1 number pageInput →
    (log.pager.page number).KeepsFailure (log.lastWrite number) (input.2 number) pageInput

theorem wrote_iff {pager : Pager} {number : ℕ} :
    wrote number pager.sent = true ↔ (pager.view number).Wrote := by
  unfold wrote Page.Wrote
  rw [List.any_eq_true]
  constructor
  · rintro ⟨event, isSent, isWrite⟩
    split at isWrite
    · rename_i other data
      have same : other = number := of_decide_eq_true isWrite
      subst same
      exact ⟨data, Pager.mem_eventsOf.mpr isSent⟩
    · cases isWrite
  · rintro ⟨data, isSent⟩
    exact ⟨_, Pager.mem_eventsOf.mp isSent, by simp⟩

theorem step_remembers {log next : WriteLog} {input : Input × Callbacks} (quiet : log.pager.Quiet)
    (before : log.Remembers) (keepsFailures : log.KeepsFailures input)
    (taken : log.step input = some next) : next.pager.Quiet ∧ next.Remembers := by
  rcases Option.map_eq_some_iff.mp taken with ⟨pager, handled, rfl⟩
  rcases Pager.handle_view quiet handled with ⟨stillQuiet, -, -, projects⟩
  refine ⟨stillQuiet, ?_⟩
  intro number error failed
  have pageBefore : ∀ error, Page.Failed (log.lastWrite number) error →
      (log.pager.page number).Remembers error :=
    fun error failed => ⟨(before number error failed).1, (before number error failed).2⟩
  have after : Page.RemembersAfter (input.2 number) (log.lastWrite number) (pager.view number) := by
    rcases projects number with same | ⟨pageInput, reached, pageHandled⟩
    · rw [same]
      refine .of_kept ?_ pageBefore
      rintro ⟨data, isWrite⟩
      cases isWrite
    · exact Page.remembersAfter_handle rfl pageBefore (keepsFailures number pageInput reached)
        pageHandled
  have remembers : (pager.view number).Remembers error := by
    rcases failed with ⟨isLast, isError⟩
    simp only at isLast
    split_ifs at isLast with isWritten
    · cases isLast
      exact after.written (wrote_iff.mp isWritten) isError
    · exact after.kept (fun wrote => isWritten (wrote_iff.mpr wrote)) error ⟨isLast, isError⟩
  exact ⟨remembers.invalid, remembers.error⟩

/-- What is required of the answer to a request for a page whose last write has failed. -/
structure AnsweredWithError (log : WriteLog) (client : MachPort) (number : ℕ) (error : KernReturn)
    (next : WriteLog) : Prop where
  only : ∀ event, Event.page number event ∈ next.pager.sent →
    event = .readPage ∨ event = .dataError client error
  answered : (log.pager.pagemap number).waitlist = [] →
    (log.pager.pagemap number).writeAccessGranted = false →
      Event.page number (.dataError client error) ∈ next.pager.sent

/--
In every run in which nothing forgets it, a failed write is remembered until a later one succeeds,
and once nobody has the page, a request for it is answered with the error.
-/
theorem failedWrite_remembered {pageSize : ℕ} {pageSize_pos : 0 < pageSize} {mayCache : Bool}
    {copyStrategy : ℕ} {notifyOnEvict : Bool} {log : WriteLog}
    (reached : Transition.Reachable step KeepsFailures
      { pager := Pager.create pageSize pageSize_pos mayCache copyStrategy notifyOnEvict } log) :
    log.Remembers ∧
      ∀ client offset length access results next error,
        log.KeepsFailures (.dataRequest client offset length access, results) →
        log.step (.dataRequest client offset length access, results) = some next →
        log.pager.terminating = false → log.Failed (offset / log.pager.pageSize) error →
        (log.pager.pagemap (offset / log.pager.pageSize)).accesslist.isEmpty = true →
        log.AnsweredWithError client (offset / log.pager.pageSize) error next := by
  have both : log.pager.Quiet ∧ log.Remembers := by
    refine reached.invariant (fun log => log.pager.Quiet ∧ log.Remembers)
      ⟨Pager.create_quiet _ _ _ _ _, ?_⟩ ?_
    · rintro number error ⟨isLast, -⟩
      cases isLast
    · rintro state next input ⟨quiet, remembers⟩ allowed taken
      exact step_remembers quiet remembers allowed taken
  rcases both with ⟨quiet, remembers⟩
  refine ⟨remembers, ?_⟩
  intro client offset length access results next error allowed taken running failed nobody
  rcases Option.map_eq_some_iff.mp taken with ⟨pager, handled, rfl⟩
  rcases Pager.dataRequest_view running handled with ⟨reaches, requested⟩
  have isRemembered := remembers _ error failed
  have answers : (log.pager.page (offset / log.pager.pageSize)).AnswersWith client
      (wantsWrite access) (results (offset / log.pager.pageSize)) error :=
    allowed _ _ reaches error failed
  rcases Page.dataRequest_answers rfl ⟨isRemembered.1, isRemembered.2⟩ failed.2
    nobody answers requested with ⟨only, answered⟩
  exact ⟨fun event isSent => only event (Pager.mem_eventsOf.mpr isSent),
    fun noneWaiting notGranted => Pager.mem_eventsOf.mp (answered noneWaiting notGranted)⟩

/-- A page is written while its client keeps a copy, and the write fails. -/
def failedSyncRun : List (Input × Callbacks) :=
  [(.dataRequest 1 0 1 vmProtWrite, fun _ => {}),
    (.dataReturn 1 0 (fun _ => 7) 1 true true, fun _ => { write := 5 })]

theorem failedSyncRun_remembered : ∃ log,
    Transition.run step failedSyncRun { pager := Pager.create 1 (by decide) false 0 false } =
        some log ∧
      log.Failed 0 5 ∧ log.Remembers := by
  have isAllowed : Transition.AllowedRun step KeepsFailures failedSyncRun
      { pager := Pager.create 1 (by decide) false 0 false } := by
    refine ⟨?_, fun _ _ => ⟨?_, fun _ _ => trivial⟩⟩
    · intro number pageInput reaches
      cases reaches with
      | dataRequest =>
          rintro error ⟨isLast, -⟩
          cases isLast
    · intro number pageInput reaches
      cases reaches with
      | dataReturn => trivial
      | dataReturnUnmatched => trivial
  have last : (Transition.run step failedSyncRun
      { pager := Pager.create 1 (by decide) false 0 false }).map (·.lastWrite 0) =
        some (some 5) := rfl
  rcases Option.map_eq_some_iff.mp last with ⟨log, finished, isLast⟩
  have reached := Transition.Reachable.start.of_run failedSyncRun isAllowed finished
  exact ⟨log, finished, ⟨isLast, by decide⟩, (failedWrite_remembered reached).1⟩

/-- The page is returned for good, and the write fails. -/
def failedReturnRun : List (Input × Callbacks) :=
  [(.dataRequest 1 0 1 vmProtWrite, fun _ => {}),
    (.dataReturn 1 0 (fun _ => 7) 1 true false, fun _ => { write := 5 })]

/-- Nothing is left of the error. -/
theorem failedReturnRun_forgotten : ∃ log,
    Transition.run step failedReturnRun { pager := Pager.create 1 (by decide) false 0 false } =
        some log ∧
      ¬log.Remembers := by
  refine ⟨_, rfl, ?_⟩
  intro remembers
  have isInvalid := (remembers 0 5 ⟨by decide, by decide⟩).1
  exact absurd isInvalid (by decide)

end WriteLog

end Hurd.Libpager
