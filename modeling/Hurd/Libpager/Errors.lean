import Hurd.Libpager.Exclusive

/-!
# Errors that are sent and errors that are kept

`ERROR` is what `get_error` returns, and with `INVALID` it is what the pager remembers of a write
that has failed.  The routines for a page fall into those that keep both, and those that set
`ERROR` and tell the waiting clients of it: `Keeps` and `Reports`.  What is left is `data_request`
on a page with an error, and the evictions, which forget it.
-/

namespace Hurd.Libpager

/-- The event is neither an error nor a write. -/
def PageEvent.Silent : PageEvent → Prop
  | .dataError _ _ => False
  | .writePage _ => False
  | _ => True

/-- The event is a message to a client that has or gets the page. -/
def PageEvent.Plain : PageEvent → Prop
  | .dataSupply .. => True
  | .lockRequest .. => True
  | _ => False

theorem PageEvent.Plain.silent {event : PageEvent} (isPlain : event.Plain) : event.Silent := by
  cases event <;> trivial

namespace Page

/-- All that has been done since `page` is of one kind. -/
def Sends (kind : PageEvent → Prop) (page next : Page) : Prop :=
  ∃ events, next.sent = page.sent ++ events ∧ ∀ event ∈ events, kind event

section Sends

variable {kind more : PageEvent → Prop} {page middle next : Page}

theorem Sends.of_sent (same : next.sent = page.sent) : Sends kind page next :=
  ⟨[], by rw [same, List.append_nil], by simp⟩

theorem Sends.send {event : PageEvent} (isKind : kind event) : Sends kind page (page.send event) :=
  ⟨[event], rfl, by simpa using isKind⟩

theorem Sends.trans (first : Sends kind page middle) (second : Sends kind middle next) :
    Sends kind page next := by
  rcases first with ⟨events, isMiddle, areKind⟩
  rcases second with ⟨events', isNext, areKind'⟩
  refine ⟨events ++ events', ?_, ?_⟩
  · rw [isNext, isMiddle, List.append_assoc]
  · intro event isEvent
    rcases List.mem_append.mp isEvent with isFirst | isSecond
    · exact areKind event isFirst
    · exact areKind' event isSecond

theorem Sends.mono (weaken : ∀ event, kind event → more event) (sends : Sends kind page next) :
    Sends more page next := by
  rcases sends with ⟨events, isNext, areKind⟩
  exact ⟨events, isNext, fun event isEvent => weaken event (areKind event isEvent)⟩

/-- Where nothing had been sent, everything is of the kind. -/
theorem Sends.forall (sends : Sends kind page next) (nothing : page.sent = []) :
    ∀ event ∈ next.sent, kind event := by
  rcases sends with ⟨events, isNext, areKind⟩
  rw [isNext, nothing]
  exact areKind

end Sends

/-- `INVALID` and `ERROR` are as they were, and no error has been sent and nothing written. -/
structure Keeps (page next : Page) : Prop where
  sends : Sends PageEvent.Silent page next
  invalid : next.entry.invalid = page.entry.invalid
  error : next.entry.error = page.entry.error

/-- `ERROR` is now `error`, and no other error has been sent. -/
structure Reports (error : KernReturn) (page next : Page) : Prop where
  sends : Sends (fun event => event.Silent ∨ ∃ client, event = .dataError client error) page next
  invalid : next.entry.invalid = page.entry.invalid
  error : next.entry.error = error

section Routines

variable {page middle next : Page} {client : MachPort} {error : KernReturn}

theorem Keeps.trans (first : Keeps page middle) (second : Keeps middle next) : Keeps page next :=
  ⟨first.sends.trans second.sends, second.invalid.trans first.invalid,
    second.error.trans first.error⟩

/-- Only the lists of the page have changed, or its locks. -/
theorem Keeps.of_lists (sent : next.sent = page.sent)
    (invalid : next.entry.invalid = page.entry.invalid)
    (error : next.entry.error = page.entry.error) : Keeps page next :=
  ⟨.of_sent sent, invalid, error⟩

theorem Keeps.send {event : PageEvent} (isSilent : event.Silent) : Keeps page (page.send event) :=
  ⟨.send isSilent, rfl, rfl⟩

theorem Keeps.reports (keeps : Keeps page next) : Reports page.entry.error page next :=
  ⟨keeps.sends.mono fun _ isSilent => Or.inl isSilent, keeps.invalid, keeps.error⟩

theorem Reports.after (reports : Reports error middle next) (keeps : Keeps page middle) :
    Reports error page next := by
  refine ⟨?_, reports.invalid.trans keeps.invalid, reports.error⟩
  exact (keeps.sends.mono fun _ isSilent => Or.inl isSilent).trans reports.sends

/-- What has been sent so far does not matter, nor does the `ERROR` so far. -/
theorem Reports.before (reports : Reports error middle next) (sent : middle.sent = page.sent)
    (invalid : middle.entry.invalid = page.entry.invalid) : Reports error page next := by
  refine ⟨?_, reports.invalid.trans invalid, reports.error⟩
  exact (Sends.of_sent sent).trans reports.sends

theorem Reports.keeps (reports : Reports error page middle) (keeps : Keeps middle next) :
    Reports error page next := by
  refine ⟨?_, keeps.invalid.trans reports.invalid, keeps.error.trans reports.error⟩
  exact reports.sends.trans (keeps.sends.mono fun _ isSilent => Or.inl isSilent)

theorem plain_flushEach (page : Page) (clients : List MachPort) :
    Sends PageEvent.Plain page (page.flushEach clients) := by
  refine ⟨_, page.flushEach_sent clients, ?_⟩
  intro event isEvent
  rcases List.mem_map.mp isEvent with ⟨client, -, rfl⟩
  trivial

theorem Sends.silent (sends : Sends PageEvent.Plain page next) : Sends PageEvent.Silent page next :=
  sends.mono fun _ => PageEvent.Plain.silent

theorem keeps_flushEach (page : Page) (clients : List MachPort) :
    Keeps page (page.flushEach clients) := by
  refine ⟨(page.plain_flushEach clients).silent, ?_, ?_⟩
  · rw [flushEach_entry]
  · rw [flushEach_entry]

theorem keeps_addToWaitlist (page : Page) (client : MachPort) (write : Bool) :
    Keeps page (page.addToWaitlist client write) :=
  .of_lists rfl rfl rfl

theorem keeps_leaveForRequest (page : Page) (client : MachPort) :
    Keeps page (page.leaveForRequest client) := by
  unfold leaveForRequest
  split_ifs
  · exact .of_lists rfl rfl rfl
  · exact .of_lists rfl rfl rfl

theorem keeps_leaveForReturn (page : Page) (client : MachPort) :
    Keeps page (page.leaveForReturn client) := by
  unfold leaveForReturn
  split_ifs
  · exact .of_lists rfl rfl rfl
  · exact .of_lists rfl rfl rfl

theorem keeps_storeLocks (page : Page) (locks : OrdMap MachPort OutstandingClientLock) :
    Keeps page (page.storeLocks locks) :=
  .of_lists rfl rfl rfl

theorem keeps_foldl_countLock (clients : List MachPort) (page : Page) :
    Keeps page (clients.foldl countLock page) := by
  induction clients generalizing page with
  | nil => exact .of_lists rfl rfl rfl
  | cons client rest ih =>
      have counted : Keeps page (page.countLock client) := .of_lists rfl rfl rfl
      exact counted.trans (ih (page.countLock client))

theorem keeps_shutdown (page : Page) : Keeps page { page with terminating := true } :=
  .of_lists rfl rfl rfl

theorem plain_supplyReaders (data : ℕ) (deallocate : Bool) (first : WaitlistClient)
    (rest : List WaitlistClient) (page : Page) :
    Sends PageEvent.Plain page (supplyReaders data deallocate first rest page) := by
  induction rest generalizing first page with
  | nil => exact (Sends.of_sent rfl).trans (.send trivial)
  | cons next rest ih =>
      have supplied : ∀ deallocate, Sends PageEvent.Plain page
          ((page.moveToAccesslist first.client (next :: rest)).supply first.client data deallocate
            vmProtWrite) :=
        fun _ => (Sends.of_sent rfl).trans (.send trivial)
      simp only [supplyReaders]
      split_ifs
      · exact supplied deallocate
      · exact (supplied false).trans (ih next _)

theorem plain_serviceWaitlist {data : ℕ} {allowWriteAccess deallocate : Bool}
    (served : page.serviceWaitlist data allowWriteAccess deallocate = some next) :
    Sends PageEvent.Plain page next := by
  rcases serviceWaitlist_cases served with ⟨-, rfl⟩ | ⟨first, rest, -, -, rfl⟩
  · exact .of_sent rfl
  · have sends : Sends PageEvent.Plain page
        (page.serveFirst data allowWriteAccess deallocate first rest) := by
      unfold serveFirst
      split_ifs
      · exact ⟨_, rfl, by simp [PageEvent.Plain]⟩
      · exact (plain_supplyReaders data deallocate first rest page).trans (.of_sent rfl)
    refine sends.trans ?_
    unfold flushForWaiting
    split_ifs
    · exact .of_sent rfl
    · exact plain_flushEach _ _

theorem keeps_serviceWaitlist {data : ℕ} {allowWriteAccess deallocate : Bool}
    (served : page.serviceWaitlist data allowWriteAccess deallocate = some next) :
    Keeps page next := by
  have sends := (plain_serviceWaitlist served).silent
  rcases serviceWaitlist_cases served with ⟨-, rfl⟩ | ⟨first, rest, -, -, rfl⟩
  · exact ⟨sends, rfl, rfl⟩
  · have frame := serveFirst_frame data deallocate first rest page allowWriteAccess
    refine ⟨sends, ?_, ?_⟩
    · rw [flushForWaiting_entry]
      exact frame.2.2.2.1
    · rw [flushForWaiting_entry]
      exact frame.2.2.2.2

theorem plain_finalizeUnlock (finished : page.finalizeUnlock error = some next) :
    Sends PageEvent.Plain page next := by
  cases finalizeUnlock_cases finished with
  | granted first rest _ _ nextEq =>
      rw [nextEq]
      have told : Sends PageEvent.Plain page (((page.setWaitlist rest).send
          (.lockRequest first.client .none false vmProtNone false)).setWriteAccessGranted true) :=
        Sends.send trivial
      exact told.trans (plain_flushEach _ _)
  | failed first rest _ _ nextEq =>
      rw [nextEq]
      have waits : Sends PageEvent.Plain page (page.setWaitlist rest) := .of_sent rfl
      exact waits.trans (plain_flushEach _ [first.client])

theorem keeps_finalizeUnlock (finished : page.finalizeUnlock error = some next) :
    Keeps page next := by
  have sends := (plain_finalizeUnlock finished).silent
  cases finalizeUnlock_cases finished with
  | granted first rest _ _ nextEq =>
      have same : next.entry = { page.entry with waitlist := rest, writeAccessGranted := true } := by
        rw [nextEq, flushEach_entry]
        rfl
      exact ⟨sends, by rw [same], by rw [same]⟩
  | failed first rest _ _ nextEq =>
      have same : next.entry = { page.entry with waitlist := rest } := by
        rw [nextEq]
        exact flushEach_entry _ _
      exact ⟨sends, by rw [same], by rw [same]⟩

theorem keeps_notified (notified : Notified page next) : Keeps page next := by
  rcases notified with ⟨count, rfl⟩
  refine ⟨⟨_, rfl, ?_⟩, rfl, rfl⟩
  intro event isEvent
  rw [List.eq_of_mem_replicate isEvent]
  trivial

/-- The waiting clients get the error that the page has. -/
theorem reports_sendErrorToWaitlist (page : Page) :
    Reports page.entry.error page page.sendErrorToWaitlist := by
  have told : ∀ (waitlist : List WaitlistClient) (page : Page),
      Reports page.entry.error page (waitlist.foldl sendErrorTo page) := by
    intro waitlist
    induction waitlist with
    | nil =>
        intro page
        exact (Keeps.of_lists rfl rfl rfl).reports
    | cons waiting rest ih =>
        intro page
        have head : Reports page.entry.error page (page.sendErrorTo waiting) := by
          refine ⟨?_, by rw [sendErrorTo_entry], by rw [sendErrorTo_entry]⟩
          unfold sendErrorTo
          split_ifs
          · exact (Sends.send (Or.inl trivial)).trans (.of_sent rfl)
          · exact Sends.send (Or.inr ⟨waiting.client, rfl⟩)
        have tail := ih (page.sendErrorTo waiting)
        rw [sendErrorTo_entry] at tail
        rw [List.foldl_cons]
        exact ⟨head.sends.trans tail.sends, tail.invalid.trans head.invalid, tail.error⟩
  exact (told page.entry.waitlist page).keeps (.of_lists rfl rfl rfl)

/-- The error of `pager_read_page` is the one that is kept and sent. -/
theorem reports_finishPagein {result : ReadResult} (finished : page.finishPagein result = some next) :
    Reports result.error page next := by
  rcases finishPagein_cases finished with ⟨succeeded, served⟩ | ⟨-, rfl⟩
  · rw [succeeded]
    exact (keeps_serviceWaitlist served).reports.before rfl rfl
  · exact (reports_sendErrorToWaitlist (page.setError result.error)).before rfl rfl

theorem internalLockCompleted_reports {results : PageCallbacks}
    (completed : page.internalLockCompleted client results = some next) :
    Reports page.entry.error page next ∨
      page.entry.invalid = false ∧ Reports results.read.error page next := by
  have left : Keeps page (page.removeFromAccesslist client) := .of_lists rfl rfl rfl
  cases internalLockCompleted_cases completed with
  | terminating _ nextEq =>
      rw [nextEq]
      exact Or.inl (Keeps.of_lists rfl rfl rfl).reports
  | idle _ _ _ nextEq =>
      rw [nextEq]
      exact Or.inl (Keeps.of_lists rfl rfl rfl).reports
  | others _ _ _ _ _ nextEq =>
      rw [nextEq]
      exact Or.inl left.reports
  | refuse _ _ _ _ _ _ nextEq =>
      rw [nextEq]
      exact Or.inl ((reports_sendErrorToWaitlist _).after left)
  | pagein _ _ _ _ _ valid finished =>
      have called : Keeps page ((page.removeFromAccesslist client).send .readPage) :=
        left.trans (.send trivial)
      exact Or.inr ⟨valid, (reports_finishPagein finished).after called⟩
  | unlock _ _ _ _ _ _ _ _ finished =>
      have called : Keeps page ((page.removeFromAccesslist client).send .unlockPage) :=
        left.trans (.send trivial)
      exact Or.inl (called.trans (keeps_finalizeUnlock finished)).reports

/-- Every error that has been sent is the one that `get_error` returns. -/
def Consistent (page : Page) : Prop :=
  ∀ client error, .dataError client error ∈ page.sent → page.entry.error = error

theorem Reports.consistent (reports : Reports error page next) (nothing : page.sent = []) :
    next.Consistent := by
  intro client other isSent
  rcases reports.sends.forall nothing _ isSent with isSilent | ⟨_, same⟩
  · cases isSilent
  · cases same
    exact reports.error

theorem Keeps.consistent (keeps : Keeps page next) (nothing : page.sent = []) : next.Consistent :=
  keeps.reports.consistent nothing

/--
A request goes on to `pager_read_page`: the page is not being paged out, nobody waits, and it can
be shared or is free.
-/
def PagesIn (page : Page) (client : MachPort) (write : Bool) : Prop :=
  page.entry.pagingout = false ∧ page.entry.waitlist = [] ∧
    (page.leaveForRequest client).entry.writeAccessGranted = false ∧
    (write = true → (page.leaveForRequest client).entry.accesslist.isEmpty = true)

/--
An error that `data_request` finds, in `NEXTERROR` or on a page that is invalid, is the `ERROR`
that the page has when the request has been handled.
-/
def FindsKnown (page : Page) (client : MachPort) (write : Bool) (results : PageCallbacks) : Prop :=
  match takeNexterror client page.nexterror with
  | some (found, _) => found.error = page.entry.error
  | none => page.PagesIn client write → page.entry.invalid = true →
      results.read.error = page.entry.error

end Routines

section Handlers

variable {page next : Page} {client : MachPort} {results : PageCallbacks}

theorem sends_tellInvalid (page : Page) (client : MachPort) :
    (page.tellInvalid client).sent =
      page.sent ++ if page.entry.invalid then [.dataError client page.entry.error] else [] := by
  unfold tellInvalid
  split_ifs
  · rfl
  · rw [List.append_nil]

/-- A page in sends both errors: the one of the last write, and its own. -/
theorem pagein_sent {write : Bool} (nothing : page.sent = [])
    (finished : ((((page.leaveForRequest client).tellInvalid client).addToWaitlist client
      write).send .readPage).finishPagein results.read = some next) :
    ∃ events, next.sent = ((if page.entry.invalid then [.dataError client page.entry.error]
        else []) ++ [.readPage]) ++ events ∧
      ∀ event ∈ events, event.Silent ∨ ∃ client, event = .dataError client results.read.error := by
  have left := page.keeps_leaveForRequest client
  have stillNothing : (page.leaveForRequest client).sent = [] := by
    unfold leaveForRequest
    split_ifs <;> exact nothing
  have told := (page.leaveForRequest client).sends_tellInvalid client
  rw [left.invalid, left.error, stillNothing] at told
  rcases (reports_finishPagein finished).sends with ⟨events, isNext, areKind⟩
  refine ⟨events, ?_, areKind⟩
  rw [isNext]
  simp only [send, addToWaitlist, told, List.nil_append]

theorem pagein_consistent {write : Bool} (nothing : page.sent = [])
    (finished : ((((page.leaveForRequest client).tellInvalid client).addToWaitlist client
      write).send .readPage).finishPagein results.read = some next) :
    next.Consistent ↔ (page.entry.invalid = true → results.read.error = page.entry.error) := by
  have reports := reports_finishPagein finished
  rcases pagein_sent nothing finished with ⟨events, sent, areKind⟩
  constructor
  · intro consistent invalid
    have isSent : .dataError client page.entry.error ∈ next.sent := by
      simp [sent, invalid]
    exact reports.error.symm.trans (consistent client _ isSent)
  · intro known other error isSent
    rw [reports.error]
    rw [sent, List.mem_append, List.mem_append] at isSent
    rcases isSent with (isTold | isCall) | isLater
    · split_ifs at isTold with invalid
      · rw [List.mem_singleton] at isTold
        cases isTold
        exact known invalid
      · cases isTold
    · rw [List.mem_singleton] at isCall
      cases isCall
    · rcases areKind _ isLater with isSilent | ⟨_, same⟩
      · cases isSilent
      · cases same
        rfl

theorem dataRequest_consistent {write : Bool} (nothing : page.sent = [])
    (requested : page.dataRequest client write results = some next) :
    next.Consistent ↔ page.FindsKnown client write results := by
  unfold FindsKnown
  cases dataRequest_cases requested with
  | error found rest taken nextEq =>
      rw [taken, nextEq]
      constructor
      · intro consistent
        exact (consistent client found.error (by simp [send])).symm
      · intro known other error isSent
        simp only [send, nothing, List.nil_append, List.mem_singleton] at isSent
        cases isSent
        exact known.symm
  | held isPagingout noError nextEq =>
      rw [noError, nextEq]
      have keeps := (page.keeps_flushEach (if page.entry.waitlist = [] then
        page.entry.accesslist.toList else [])).trans (keeps_addToWaitlist _ client write)
      refine iff_of_true (keeps.consistent nothing) ?_
      rintro ⟨notPagingout, -⟩
      rw [isPagingout] at notPagingout
      cases notPagingout
  | completed noError _ waiting finished =>
      rw [noError]
      have reports : ∃ error, Reports error page next := by
        rcases internalLockCompleted_reports finished with reports | ⟨-, reports⟩
        · exact ⟨_, reports.after (page.keeps_addToWaitlist client write)⟩
        · exact ⟨_, reports.after (page.keeps_addToWaitlist client write)⟩
      rcases reports with ⟨error, reports⟩
      exact iff_of_true (reports.consistent nothing) fun pagesIn => absurd pagesIn.2.1 waiting
  | waits noError _ waiting nextEq =>
      rw [noError, nextEq]
      exact iff_of_true ((page.keeps_addToWaitlist client write).consistent nothing)
        fun pagesIn => absurd pagesIn.2.1 waiting
  | revokes noError _ contended nextEq =>
      rw [noError, nextEq]
      have keeps := ((page.keeps_leaveForRequest client).trans
        (keeps_addToWaitlist _ client write)).trans (keeps_flushEach _
          (page.leaveForRequest client).entry.accesslist.toList)
      refine iff_of_true (keeps.consistent nothing) ?_
      rintro ⟨-, -, notGranted, free⟩
      rcases contended with granted | ⟨wanted, nonempty⟩
      · simp [notGranted] at granted
      · simp [free wanted] at nonempty
  | pagein notPagingout noError noneWaiting notGranted free finished =>
      rw [noError, pagein_consistent nothing finished]
      constructor
      · intro known _
        exact known
      · intro known
        exact known ⟨notPagingout, noneWaiting, notGranted, free⟩

theorem keeps_dataUnlock {first : Bool} {others : List MachPort}
    (unlocked : page.dataUnlock client first others results = some next) : Keeps page next := by
  have waits := page.keeps_addToWaitlist client true
  cases dataUnlock_cases unlocked with
  | ignored _ _ nextEq =>
      rw [nextEq]
      exact page.keeps_flushEach _
  | queued _ _ _ _ nextEq =>
      rw [nextEq]
      exact waits.trans (keeps_flushEach _ _)
  | revokes _ _ _ _ nextEq =>
      rw [nextEq]
      exact waits.trans (keeps_flushEach _ _)
  | alone _ _ _ _ finished =>
      have called : Keeps page (((page.addToWaitlist client true).flushEach
          (if first then others else [])).send .unlockPage) :=
        (waits.trans (keeps_flushEach _ _)).trans (.send trivial)
      exact called.trans (keeps_finalizeUnlock finished)

/-- A clean return that leaves nobody with the page or waiting for it -/
def LeavesNobody (page : Page) (client : MachPort) : Prop :=
  (page.leaveForReturn client).entry.accesslist.isEmpty = true ∧ page.entry.waitlist = []

theorem handedOff_keeps {data : ℕ} {dirty kernelCopy : Bool} {flags : ReturnFlags}
    (handedOff : HandedOff page client data dirty kernelCopy next flags) :
    Keeps page next ∨ Sends PageEvent.Silent page next ∧ dirty = false ∧ kernelCopy = false ∧
      page.LeavesNobody client := by
  have left := page.keeps_leaveForReturn client
  cases handedOff with
  | keeps _ nextEq =>
      rw [nextEq]
      exact Or.inl (.of_lists rfl rfl rfl)
  | serves _ _ _ served => exact Or.inl (left.trans (keeps_serviceWaitlist served))
  | unlocks _ _ _ _ _ _ _ _ nextEq =>
      rw [nextEq]
      exact Or.inl left
  | evicts given clean nobodyLeft noneWaiting nextEq =>
      rw [nextEq]
      exact Or.inr ⟨left.sends.trans (.of_sent rfl), clean, given, nobodyLeft, noneWaiting⟩
  | leaves _ _ nextEq =>
      rw [nextEq]
      exact Or.inl left

/-- A clean return keeps the error of the last write, unless it leaves nobody. -/
theorem dataReturn_clean {data : ℕ} {kernelCopy any : Bool}
    (returned : page.dataReturn client data false kernelCopy any results = some next) :
    Keeps page next ∨
      Sends PageEvent.Silent page next ∧ kernelCopy = false ∧ page.LeavesNobody client := by
  have finish : ∀ {handed flags}, HandedOff page client data false kernelCopy handed flags →
      Keeps handed next → Keeps page next ∨
        Sends PageEvent.Silent page next ∧ kernelCopy = false ∧ page.LeavesNobody client := by
    intro handed flags handedOff later
    rcases handedOff_keeps handedOff with keeps | ⟨sends, -, given, nobody⟩
    · exact Or.inl (keeps.trans later)
    · exact Or.inr ⟨sends.trans later.sends, given, nobody⟩
  cases dataReturn_cases returned with
  | clean _ handed flags handedOff _ notified => exact finish handedOff (keeps_notified notified)
  | unlocks _ handed notified flags handedOff _ notifies finished =>
      have called : Keeps handed (handed.send .unlockPage) := .send trivial
      exact finish handedOff
        ((called.trans (keeps_notified notifies)).trans (keeps_finalizeUnlock finished))
  | keeps isDirty => cases isDirty
  | serves isDirty => cases isDirty
  | evicts isDirty => cases isDirty

/-- The clients that still wait when a dirty page has been handed off and is to be written. -/
def stillWaiting (page : Page) (client : MachPort) : List WaitlistClient :=
  if page.terminating then page.entry.waitlist else page.waitingAfterReturn client

theorem handedOff_stillWaiting {data : ℕ}
    (handedOff : HandedOff page client data true false next ⟨false, false⟩) :
    next.entry.waitlist = page.stillWaiting client := by
  rcases page.leaveForReturn_frame client with ⟨sameWaitlist, -, -, -, -, sameTerminating, -⟩
  unfold stillWaiting waitingAfterReturn
  cases handedOff with
  | keeps copyKept => cases copyKept
  | unlocks _ _ _ _ _ _ _ _ _ flagsEq => cases flagsEq
  | evicts _ clean => cases clean
  | serves _ nobodyLeft waiting served =>
      rcases serviceWaitlist_cases served with ⟨ended, rfl⟩ | ⟨head, rest, running, isList, rfl⟩
      · rw [sameTerminating] at ended
        rw [if_pos ended, sameWaitlist]
      · rw [sameTerminating] at running
        rw [sameWaitlist] at isList
        rw [flushForWaiting_entry, serveFirst_waitlist]
        simp [running, isList, nobodyLeft]
  | leaves _ nobodyServed nextEq =>
      rw [nextEq, sameWaitlist]
      cases isList : page.entry.waitlist with
      | nil => simp
      | cons first rest =>
          have someLeft : (page.leaveForReturn client).entry.accesslist.isEmpty ≠ true := by
            intro isEmpty
            rw [(nobodyServed isEmpty).1] at isList
            cases isList
          simp [someLeft]

theorem written_of_failed {handed : Page} {data : ℕ} (failed : results.write ≠ kernSuccess) :
    (handed.written data results.write).entry.invalid = true ∧
      (handed.written data results.write).entry.error = results.write := by
  unfold written recordWrite
  rw [if_neg failed]
  exact ⟨rfl, rfl⟩

/-- A dirty page is written, and a failure is kept unless the page is evicted at once. -/
theorem dataReturn_dirty {data : ℕ} {kernelCopy any : Bool}
    (returned : page.dataReturn client data true kernelCopy any results = some next) :
    Sends (fun event => event.Silent ∨ event = .writePage data) page next ∧
      .writePage data ∈ next.sent ∧
      (results.write ≠ kernSuccess → (kernelCopy = false → page.stillWaiting client ≠ []) →
        next.entry.invalid = true ∧ next.entry.error = results.write) := by
  have wrote : ∀ handed : Page,
      (handed.written data results.write).sent = handed.sent ++ [.writePage data] := by
    intro handed
    unfold written recordWrite
    split_ifs <;> rfl
  have writes : ∀ {handed last : Page}, Sends PageEvent.Silent page handed →
      Sends PageEvent.Silent (handed.written data results.write) last →
      Sends (fun event => event.Silent ∨ event = .writePage data) page last ∧
        .writePage data ∈ last.sent := by
    rintro handed last first ⟨events, isLast, areSilent⟩
    refine ⟨(first.mono fun _ => Or.inl).trans ⟨.writePage data :: events, ?_, ?_⟩, ?_⟩
    · rw [isLast, wrote, List.append_assoc]
      rfl
    · intro event isEvent
      rcases List.mem_cons.mp isEvent with rfl | isLater
      · exact Or.inr rfl
      · exact Or.inl (areSilent event isLater)
    · simp [isLast, wrote]
  have handedOver : ∀ {handed}, HandedOff page client data true kernelCopy handed ⟨false, false⟩ →
      Sends PageEvent.Silent page handed := by
    intro handed handedOff
    rcases handedOff_keeps handedOff with keeps | ⟨sends, -⟩
    · exact keeps.sends
    · exact sends
  cases dataReturn_cases returned with
  | clean isClean => cases isClean
  | unlocks isClean => cases isClean
  | keeps _ _ nextEq =>
      rw [nextEq]
      rcases writes (Sends.of_sent rfl) (.of_sent rfl) with ⟨sends, isWritten⟩
      exact ⟨sends, isWritten, fun failed _ => written_of_failed failed⟩
  | serves _ given handed handedOff _ served =>
      have keeps := keeps_serviceWaitlist served
      rcases writes (handedOver handedOff) keeps.sends with ⟨sends, isWritten⟩
      refine ⟨sends, isWritten, fun failed _ => ?_⟩
      rw [keeps.invalid, keeps.error]
      exact written_of_failed failed
  | evicts _ given handed handedOff noneWaiting notified =>
      have evicted : Sends PageEvent.Silent (handed.written data results.write) next :=
        (Sends.of_sent rfl).trans (keeps_notified notified).sends
      rcases writes (handedOver handedOff) evicted with ⟨sends, isWritten⟩
      refine ⟨sends, isWritten, fun _ someWaiting => ?_⟩
      subst given
      rw [handedOff_stillWaiting handedOff] at noneWaiting
      exact absurd noneWaiting (someWaiting rfl)

/-- Away from `data_request`, a handler of a page sends the error that it keeps. -/
theorem handle_consistent {input : PageInput} (nothing : page.sent = [])
    (handled : page.handle input results = some next) :
    next.Consistent ↔
      ∀ client write, input = .dataRequest client write → page.FindsKnown client write results := by
  have forgets : ∀ client, Keeps page (page.forget client) := fun _ => page.keeps_storeLocks _
  have completes : ∀ {client next},
      (page.forget client).internalLockCompleted client results = some next → next.Consistent := by
    intro client next finished
    rcases internalLockCompleted_reports finished with reports | ⟨-, reports⟩
    · exact (reports.after (forgets client)).consistent nothing
    · exact (reports.after (forgets client)).consistent nothing
  cases input with
  | dataRequest client write =>
      rw [dataRequest_consistent nothing handled]
      constructor
      · rintro known _ _ ⟨⟩
        exact known
      · intro known
        exact known client write rfl
  | dataUnlock client first others =>
      exact iff_of_true ((keeps_dataUnlock handled).consistent nothing) (by simp)
  | dataReturn client data dirty kernelCopy any =>
      refine iff_of_true ?_ (by simp)
      intro other error isSent
      cases dirty with
      | false =>
          have sends : Sends PageEvent.Silent page next := by
            rcases dataReturn_clean handled with keeps | ⟨sends, -⟩
            · exact keeps.sends
            · exact sends
          cases sends.forall nothing _ isSent
      | true =>
          rcases (dataReturn_dirty handled).1.forall nothing _ isSent with isSilent | isWrite
          · cases isSilent
          · cases isWrite
  | dataReturnUnmatched client data kernelCopy =>
      refine iff_of_true ?_ (by simp)
      rcases dataReturnUnmatched_cases handled with ⟨handed, handedOff, rfl⟩
      have sends : Sends PageEvent.Silent page handed := by
        rcases handedOff_keeps handedOff with keeps | ⟨sends, -⟩
        · exact keeps.sends
        · exact sends
      intro other error isSent
      cases sends.forall nothing _ isSent
  | lockCompleted client =>
      refine iff_of_true ?_ (by simp)
      cases lockCompleted_cases handled with
      | counted record _ _ nextEq =>
          rw [nextEq]
          exact (page.keeps_storeLocks _).consistent nothing
      | external record _ _ _ nextEq =>
          rw [nextEq]
          exact (forgets client).consistent nothing
      | internal record _ _ _ finished => exact completes finished
  | dropClient control =>
      refine iff_of_true ?_ (by simp)
      rcases Option.map_eq_some_iff.mp handled with ⟨dropped, isDropped, rfl⟩
      have consistent : dropped.Consistent := by
        rcases dropLocks_cases isDropped with ⟨record, -, -, finished⟩ | ⟨-, rfl⟩
        · exact completes finished
        · exact (forgets control).consistent nothing
      unfold dropClient
      split_ifs
      · exact consistent
      · exact consistent
  | lockObject clients =>
      refine iff_of_true ?_ (by simp)
      cases handled
      exact (keeps_foldl_countLock clients page).consistent nothing
  | shutdown =>
      refine iff_of_true ?_ (by simp)
      cases handled
      exact page.keeps_shutdown.consistent nothing

end Handlers

end Page

namespace Pager

/-- The errors that the last handler has sent are the ones that `get_error` returns. -/
def ErrorsReported (pager : Pager) : Prop :=
  ∀ number client error, Event.page number (.dataError client error) ∈ pager.sent →
    pager.getError (number * pager.pageSize) = error

/--
A request that is answered with an error, from `NEXTERROR` or because the page is invalid, is
answered with the `ERROR` that the page is left with.
-/
def FindsKnown (pager : Pager) (input : Input × Callbacks) : Prop :=
  match input.1 with
  | .dataRequest client offset _ access =>
      pager.terminating = false → (pager.page (offset / pager.pageSize)).FindsKnown client
        (wantsWrite access) (input.2 (offset / pager.pageSize))
  | _ => True

theorem getError_page (pager : Pager) (number : ℕ) :
    pager.getError (number * pager.pageSize) = (pager.pagemap number).error := by
  rw [getError, Nat.mul_div_cancel _ pager.pageSize_pos]

theorem errorsReported_iff (pager : Pager) :
    pager.ErrorsReported ↔ ∀ number, (pager.view number).Consistent := by
  constructor
  · intro reported number client error isSent
    rw [← reported number client error (mem_eventsOf.mp isSent), getError_page]
    rfl
  · intro consistent number client error isSent
    rw [getError_page]
    exact consistent number client error (mem_eventsOf.mpr isSent)

/-- What `data_request` does to its page -/
theorem dataRequest_view {pager next : Pager} {client : MachPort} {offset length : ℕ}
    {access : VmProt} {results : Callbacks} (running : pager.terminating = false)
    (handled : pager.handle (.dataRequest client offset length access, results) = some next) :
    pager.Reaches (.dataRequest client offset length access) (offset / pager.pageSize)
        (.dataRequest client (wantsWrite access)) ∧
      (pager.page (offset / pager.pageSize)).dataRequest client (wantsWrite access)
        (results (offset / pager.pageSize)) = some (next.view (offset / pager.pageSize)) := by
  simp only [handle, dataRequest] at handled
  split_ifs at handled with misaligned terminating
  · rw [running] at terminating
    cases terminating
  · rw [not_or, not_not, not_not] at misaligned
    rcases misaligned with ⟨rfl, aligned⟩
    refine ⟨.dataRequest running aligned, ?_⟩
    rcases Option.map_eq_some_iff.mp handled with ⟨page, requested, rfl⟩
    have stored := view_setPage_self { pager with sent := [] } (offset / pager.pageSize) page
    have constants := Page.dataRequest_constants requested
    rw [stored, Page.rebase_eq_after (by exact constants)]
    exact requested

theorem handle_errorsReported {pager next : Pager} {input : Input × Callbacks}
    (quiet : pager.Quiet) (handled : pager.handle input = some next) :
    next.ErrorsReported ↔ pager.FindsKnown input := by
  rcases input with ⟨input, results⟩
  rw [errorsReported_iff]
  constructor
  · intro consistent
    unfold FindsKnown
    split
    · rename_i client offset length access isRequest
      intro running
      have isRequest : input = .dataRequest client offset length access := isRequest
      subst isRequest
      have requested := (dataRequest_view running handled).2
      rw [← Page.dataRequest_consistent rfl requested]
      exact consistent _
    · trivial
  · intro known number
    rcases handle_view quiet handled with ⟨-, -, -, projects⟩
    rcases projects number with same | ⟨pageInput, reached, pageHandled⟩
    · intro client error isSent
      rw [same] at isSent
      cases isSent
    · rw [Page.handle_consistent rfl pageHandled]
      rintro client write rfl
      cases reached with
      | dataRequest running aligned => exact known running

/--
Whatever the state and the message, the errors that a handler sends are the ones `get_error`
returns afterwards, if and only if the handler is no `data_request` that finds another error.
-/
theorem errorsReported_of_reachable {pageSize : ℕ} {pageSize_pos : 0 < pageSize} {mayCache : Bool}
    {copyStrategy : ℕ} {notifyOnEvict : Bool} {pager next : Pager} {input : Input × Callbacks}
    (reached : Transition.Reachable handle (fun _ _ => True)
      (create pageSize pageSize_pos mayCache copyStrategy notifyOnEvict) pager)
    (handled : pager.handle input = some next) :
    next.ErrorsReported ↔ pager.FindsKnown input := by
  have quiet : pager.Quiet := by
    refine reached.invariant Quiet (create_quiet _ _ _ _ _) ?_
    intro state next input quiet _ taken
    exact (handle_view quiet taken).1
  exact handle_errorsReported quiet handled

/-- A page is read, and the filesystem refuses to unlock it. -/
def unlockRefusedRun : List (Input × Callbacks) :=
  [(.dataRequest 1 0 1 1, fun _ => {}), (.dataUnlock 1 0 1, fun _ => { unlock := 5 }),
    (.lockCompleted 1 0 1, fun _ => {})]

theorem unlockRefusedRun_reports : ∃ pager next,
    Transition.run handle unlockRefusedRun (create 1 (by decide) false 0 false) = some pager ∧
      pager.handle (.dataRequest 2 0 1 1, fun _ => { read := { error := 5 } }) = some next ∧
      next.ErrorsReported := by
  have facts : (Transition.run handle unlockRefusedRun (create 1 (by decide) false 0 false)).map
      (fun pager => ((pager.handle (.dataRequest 2 0 1 1,
        fun _ => { read := { error := 5 } })).isSome, Page.takeNexterror 2 (pager.nexterror 0),
          (pager.pagemap 0).invalid)) = some (true, none, false) := rfl
  rcases Option.map_eq_some_iff.mp facts with ⟨pager, finished, facts⟩
  simp only [Prod.mk.injEq] at facts
  rcases facts with ⟨handles, noError, valid⟩
  rcases Option.isSome_iff_exists.mp handles with ⟨next, handled⟩
  refine ⟨pager, next, finished, handled, ?_⟩
  have reached := Transition.Reachable.start.of_run unlockRefusedRun
    (.of_always (fun _ _ _ => trivial) _) finished
  refine (errorsReported_of_reachable reached handled).mpr ?_
  intro _
  simp [Page.FindsKnown, page, noError, valid]

/-- The client of the refused unlock asks again, and gets an error that is not stored. -/
theorem unlockRefusedRun_not_reported : ∃ pager next,
    Transition.run handle unlockRefusedRun (create 1 (by decide) false 0 false) = some pager ∧
      pager.handle (.dataRequest 1 0 1 1, fun _ => {}) = some next ∧ ¬next.ErrorsReported := by
  refine ⟨_, _, rfl, rfl, ?_⟩
  intro reported
  have isError := reported 0 1 5 (by decide)
  exact absurd isError (by decide)

end Pager

end Hurd.Libpager
