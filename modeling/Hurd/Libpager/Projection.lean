import Hurd.Libpager.Locality
import Hurd.Libpager.PageHandlers

/-!
# A handler, page by page

The pages of a pager meet only in the messages that span several of them, and there each
page sees the same handler.  `Page.handle` is a handler as one page sees it, `Reaches` says
which handler of a page a message amounts to, and `handle_view` puts the two together: what
a handler does to a page is what `Page.handle` does to it.

Between two handlers `WRITEWAIT` is empty, because a handler runs to its end before the next one
starts; and an internal flush is only ever outstanding on the record of a single page.  `Quiet`
collects these facts.  No page is being paged out either, unless a dirty return has left a page
unwritten: the end of a range that reaches the last offset wraps around, and then
`matching_page_count_on_WRITEWAIT` counts none of its pages but the last.
-/

namespace Hurd.Libpager

namespace Pager

variable {pager next : Pager}

section SinglePage

variable {client : MachPort} {number : ℕ} {results : Callbacks}

theorem pagesOf_page (pager : Pager) (number : ℕ) :
    pager.pagesOf (number * pager.pageSize) pager.pageSize = [number] := by
  rw [pagesOf, Nat.mul_div_cancel _ pager.pageSize_pos, Nat.div_self pager.pageSize_pos]
  rfl

/-- `internal_lock_completed` for a flush of one page. -/
theorem internalLockCompleted_view
    (done : pager.internalLockCompleted client (number * pager.pageSize) pager.pageSize results =
      some next) :
    SameRest pager next ∧
      (pager.view number).internalLockCompleted client (results number) =
        some (next.view number) ∧
      ∀ other ≠ number, next.view other = pager.view other := by
  have aligned : ¬(pager.pageSize % pager.pageSize ≠ 0 ∨
      number * pager.pageSize % pager.pageSize ≠ 0) := by simp
  rw [internalLockCompleted, if_neg aligned] at done
  by_cases terminating : pager.terminating = true
  · rw [if_pos terminating, Option.some_inj] at done
    subst done
    refine ⟨.refl pager, ?_, fun _ _ => rfl⟩
    rw [Page.internalLockCompleted, if_pos]
    exact terminating
  · rw [if_neg terminating, pagesOf_page] at done
    rcases Option.bind_eq_some_iff.mp done with ⟨⟨entered, operations⟩, enterDone, done⟩
    rcases Option.bind_eq_some_iff.mp done with ⟨called, callDone, exitDone⟩
    have distinct : [number].Nodup := by simp
    rcases forEach_onPageFlag distinct
      (fun _ => Page.stable_internalLockCompletedEnter client) enterDone with
      ⟨enterRest, enterOwn, enterFrame⟩
    rcases forEach_onPage distinct
      (fun other => Page.stable_internalLockCompletedCall (operations other)) callDone with
      ⟨callRest, callOwn, callFrame⟩
    rcases forEach_onPage distinct
      (fun other => Page.stable_internalLockCompletedExit (results other) (operations other))
      exitDone with ⟨exitRest, exitOwn, exitFrame⟩
    refine ⟨enterRest.trans (callRest.trans exitRest), ?_, ?_⟩
    · have entersPage := enterOwn number List.mem_cons_self
      have callsPage := Option.some_inj.mp (callOwn number List.mem_cons_self)
      have exitsPage := exitOwn number List.mem_cons_self
      rw [← callsPage] at exitsPage
      rw [Page.internalLockCompleted, if_neg (by exact terminating), entersPage]
      exact exitsPage
    · intro other different
      have notMem : other ∉ [number] := by simpa using different
      rw [exitFrame other notMem, callFrame other notMem, (enterFrame other notMem).1]

end SinglePage

section DataUnlock

variable {client : MachPort} {results : Callbacks}

theorem unlockPass_view {first number : ℕ} {state next : Pager × (ℕ → Bool)}
    (done : unlockPass client first number state = some next) :
    SameRest state.1 next.1 ∧ ∃ page doUnlock flushes,
      (state.1.view number).dataUnlockEnter client = some (page, doUnlock, flushes) ∧
      (∀ flushed ∈ flushes, (state.1.view number).RevokesOnUnlock ∧
        flushed ∈ (state.1.view number).entry.accesslist) ∧
      next.2 = Function.update state.2 number doUnlock ∧
      next.1.view number = (if number = first then page.flushEach flushes else page) ∧
      (number ≠ first → next.1.view first = (state.1.view first).flushEach flushes) ∧
      ∀ other, other ≠ number → other ≠ first → next.1.view other = state.1.view other := by
  rcases Option.bind_eq_some_iff.mp done with ⟨⟨page, doUnlock, flushes⟩, entered, done⟩
  rcases Option.map_eq_some_iff.mp done with ⟨pager, flushed, rfl⟩
  have stable := Page.stable_dataUnlockEnter client
  have viewEntered : (state.1.view number).dataUnlockEnter client =
      some ((state.1.view number).rebase page, doUnlock, flushes) := by
    rw [← stable.andThenFlag_eq, Page.andThenFlag]
    exact congrArg (Option.map _) entered
  have flushLocal := onPage_local first fun page => some (page.flushEach flushes)
  have ownFlush := flushLocal.own flushed
  rw [(Page.stable_flushEach flushes).andThen_eq] at ownFlush
  refine ⟨(sameRest_setPage _ _ _).trans (sameRest_onPage flushed), _, doUnlock, flushes,
    viewEntered, Page.dataUnlockEnter_flushes viewEntered, rfl, ?_, ?_, ?_⟩
  · by_cases same : number = first
    · subst same
      rw [if_pos rfl, ← Option.some_inj, ← ownFlush, view_setPage_self]
    · rw [if_neg same, flushLocal.frame flushed same, view_setPage_self]
  · intro different
    rw [← Option.some_inj, ← ownFlush, view_setPage_of_ne _ _ _ (Ne.symm different)]
  · intro other notNumber notFirst
    rw [flushLocal.frame flushed notFirst, view_setPage_of_ne _ _ _ notNumber]

theorem flushEach_append (page : Page) (clients more : List MachPort) :
    (page.flushEach clients).flushEach more = page.flushEach (clients ++ more) :=
  List.foldl_append.symm

/-- The first loop of `data_unlock` on pages after the first: their flushes go to the first. -/
theorem forEach_unlockPass {first : ℕ} {pages : List ℕ} (distinct : pages.Nodup)
    (notFirst : first ∉ pages) {state next : Pager × (ℕ → Bool)}
    (done : Loop.forEach (unlockPass client first) pages state = some next) :
    SameRest state.1 next.1 ∧
      (∃ others, (∀ other ∈ others, ∃ number ∈ pages, (state.1.view number).RevokesOnUnlock ∧
          other ∈ (state.1.view number).entry.accesslist) ∧
        next.1.view first = (state.1.view first).flushEach others) ∧
      (∀ number ∈ pages, ∃ flushes, (state.1.view number).dataUnlockEnter client =
        some (next.1.view number, next.2 number, flushes)) ∧
      (∀ other ∉ pages, next.2 other = state.2 other) ∧
      ∀ other, other ≠ first → other ∉ pages → next.1.view other = state.1.view other := by
  induction pages generalizing state with
  | nil =>
      cases done
      exact ⟨.refl _, ⟨[], by simp, rfl⟩, by simp, fun _ _ => rfl, fun _ _ _ => rfl⟩
  | cons head tail ih =>
      rcases List.nodup_cons.mp distinct with ⟨headNotMem, tailDistinct⟩
      rw [List.mem_cons, not_or] at notFirst
      rcases notFirst with ⟨headNe, firstNotMem⟩
      rcases Option.bind_eq_some_iff.mp done with ⟨middle, headDone, tailDone⟩
      obtain ⟨headRest, page, doUnlock, flushes, entered, flushesListed, flagsEq, headView,
        firstView, headFrame⟩ := unlockPass_view headDone
      rw [if_neg (Ne.symm headNe)] at headView
      rcases ih tailDistinct firstNotMem tailDone with
        ⟨tailRest, ⟨others, othersListed, firstEq⟩, tailOwn, tailFlags, tailFrame⟩
      have sameLater : ∀ number ∈ tail, middle.1.view number = state.1.view number := by
        intro number numberMem
        exact headFrame number (fun same => headNotMem (same ▸ numberMem))
          fun same => firstNotMem (same ▸ numberMem)
      refine ⟨headRest.trans tailRest, ⟨flushes ++ others, ?_, ?_⟩, ?_, ?_, ?_⟩
      · intro other otherMem
        rcases List.mem_append.mp otherMem with flushed | later
        · exact ⟨head, List.mem_cons_self, flushesListed other flushed⟩
        · rcases othersListed other later with ⟨number, numberMem, listed⟩
          rw [sameLater number numberMem] at listed
          exact ⟨number, List.mem_cons_of_mem _ numberMem, listed⟩
      · rw [firstEq, firstView (Ne.symm headNe), flushEach_append]
      · intro number numberMem
        rcases List.mem_cons.mp numberMem with rfl | numberMem
        · have flagEq : next.2 number = doUnlock := by
            rw [tailFlags number headNotMem, flagsEq, Function.update_self]
          have viewEq : next.1.view number = page := by
            rw [tailFrame number (Ne.symm headNe) headNotMem, headView]
          rw [flagEq, viewEq]
          exact ⟨flushes, entered⟩
        · rw [← sameLater number numberMem]
          exact tailOwn number numberMem
      · intro other notMem
        rw [List.mem_cons, not_or] at notMem
        rw [tailFlags other notMem.2, flagsEq, Function.update_of_ne notMem.1]
      · intro other notFirst notMem
        rw [List.mem_cons, not_or] at notMem
        rw [tailFrame other notFirst notMem.2, headFrame other notMem.1 notFirst]

/-- The first loop of `data_unlock`, for each page of the message. -/
theorem forEach_unlockPass_view {first count : ℕ} {state next : Pager × (ℕ → Bool)}
    (done : Loop.forEach (unlockPass client first) (List.range' first count) state = some next) :
    SameRest state.1 next.1 ∧
      (∀ number ∈ List.range' first count, ∃ page flushes others,
        (∀ other ∈ others, ∃ number ∈ List.range' first count, number ≠ first ∧
          (state.1.view number).RevokesOnUnlock ∧
            other ∈ (state.1.view number).entry.accesslist) ∧
        (state.1.view number).dataUnlockEnter client = some (page, next.2 number, flushes) ∧
        next.1.view number =
          (if number = first then page.flushEach (flushes ++ others) else page)) ∧
      ∀ other ∉ List.range' first count, next.1.view other = state.1.view other := by
  cases count with
  | zero =>
      cases done
      exact ⟨.refl _, by simp, fun _ _ => rfl⟩
  | succ count =>
      rw [List.range'_succ] at done ⊢
      rcases Option.bind_eq_some_iff.mp done with ⟨middle, firstDone, laterDone⟩
      have firstNotMem : first ∉ List.range' (first + 1) count := by simp
      rcases unlockPass_view firstDone with
        ⟨firstRest, page, doUnlock, flushes, entered, -, flagsEq, firstView, -, firstFrame⟩
      rw [if_pos rfl] at firstView
      rcases forEach_unlockPass List.nodup_range' firstNotMem laterDone with
        ⟨laterRest, ⟨others, othersListed, firstEq⟩, laterOwn, laterFlags, laterFrame⟩
      refine ⟨firstRest.trans laterRest, ?_, ?_⟩
      · intro number numberMem
        rcases List.mem_cons.mp numberMem with rfl | numberMem
        · have flagEq : next.2 number = doUnlock := by
            rw [laterFlags number firstNotMem, flagsEq, Function.update_self]
          refine ⟨page, flushes, others, ?_, flagEq ▸ entered, ?_⟩
          · intro other otherMem
            rcases othersListed other otherMem with ⟨later, laterMem, listed⟩
            have different : later ≠ number := fun same => firstNotMem (same ▸ laterMem)
            rw [firstFrame later different different] at listed
            exact ⟨later, List.mem_cons_of_mem _ laterMem, different, listed⟩
          · rw [if_pos rfl, firstEq, firstView, flushEach_append]
        · have different : number ≠ first := fun same => firstNotMem (same ▸ numberMem)
          rcases laterOwn number numberMem with ⟨flushes, entered⟩
          rw [firstFrame number different different] at entered
          exact ⟨next.1.view number, flushes, [], by simp, entered, (if_neg different).symm⟩
      · intro other notMem
        rw [List.mem_cons, not_or] at notMem
        rw [laterFrame other notMem.1 notMem.2, firstFrame other notMem.1 notMem.1]

theorem dataUnlock_view {offset length : ℕ}
    (done : pager.dataUnlock client offset length results = some next) :
    SameRest pager next ∧
      ((pager.terminating = true ∧ next = pager) ∨
        pager.terminating = false ∧ length % pager.pageSize = 0 ∧ offset % pager.pageSize = 0 ∧
        (∀ number ∈ pager.pagesOf offset length, ∃ others,
          (∀ other ∈ others, ∃ number ∈ pager.pagesOf offset length,
            number ≠ offset / pager.pageSize ∧ (pager.view number).RevokesOnUnlock ∧
              other ∈ (pager.view number).entry.accesslist) ∧
          (pager.view number).dataUnlock client (number = offset / pager.pageSize) others
            (results number) = some (next.view number)) ∧
        ∀ other ∉ pager.pagesOf offset length, next.view other = pager.view other) := by
  unfold dataUnlock at done
  split_ifs at done with misaligned terminating
  · cases done
    exact ⟨.refl _, Or.inl ⟨terminating, rfl⟩⟩
  · rcases Option.bind_eq_some_iff.mp done with ⟨⟨entered, flags⟩, enterDone, done⟩
    rcases Option.bind_eq_some_iff.mp done with ⟨called, callDone, exitDone⟩
    have distinct : (pager.pagesOf offset length).Nodup := List.nodup_range'
    rcases forEach_unlockPass_view enterDone with ⟨enterRest, enterOwn, enterFrame⟩
    rcases forEach_onPage distinct
      (fun number => Page.stable_unlockCall (flags number)) callDone with
      ⟨callRest, callOwn, callFrame⟩
    rcases forEach_onPage distinct
      (fun number => Page.stable_unlockExit (flags number) (results number)) exitDone with
      ⟨exitRest, exitOwn, exitFrame⟩
    rw [not_or, not_not, not_not] at misaligned
    refine ⟨enterRest.trans (callRest.trans exitRest), Or.inr ⟨Bool.eq_false_iff.mpr terminating,
      misaligned.1, misaligned.2, ?_, ?_⟩⟩
    · intro number numberMem
      rcases enterOwn number numberMem with
        ⟨page, flushes, others, othersListed, entersPage, viewEq⟩
      have callsPage := Option.some_inj.mp (callOwn number numberMem)
      have exitsPage := exitOwn number numberMem
      rw [← callsPage, viewEq] at exitsPage
      refine ⟨others, othersListed, ?_⟩
      rw [Page.dataUnlock, entersPage]
      by_cases first : number = offset / pager.pageSize
      · simpa [first] using exitsPage
      · simpa [first, Page.flushEach] using exitsPage
    · intro other notMem
      rw [exitFrame other notMem, callFrame other notMem, enterFrame other notMem]

end DataUnlock

section DataReturn

variable {client : MachPort} {results : Callbacks}

theorem mem_pagesOf {offset length number : ℕ} (offsetAligned : offset % pager.pageSize = 0)
    (lengthAligned : length % pager.pageSize = 0)
    (numberMem : number ∈ pager.pagesOf offset length) :
    offset ≤ number * pager.pageSize ∧ (number + 1) * pager.pageSize ≤ offset + length := by
  rw [pagesOf, List.mem_range'_1] at numberMem
  have offsetEq : offset / pager.pageSize * pager.pageSize = offset :=
    Nat.div_mul_cancel (Nat.dvd_of_mod_eq_zero offsetAligned)
  have lengthEq : length / pager.pageSize * pager.pageSize = length :=
    Nat.div_mul_cancel (Nat.dvd_of_mod_eq_zero lengthAligned)
  constructor
  · calc offset = offset / pager.pageSize * pager.pageSize := offsetEq.symm
      _ ≤ number * pager.pageSize := Nat.mul_le_mul_right _ numberMem.1
  · calc (number + 1) * pager.pageSize
        ≤ (offset / pager.pageSize + length / pager.pageSize) * pager.pageSize :=
          Nat.mul_le_mul_right _ numberMem.2
      _ = offset + length := by rw [Nat.add_mul, offsetEq, lengthEq]

/-- The range of one page is always matched. -/
theorem matchesPage_single (pager : Pager) (number : ℕ) :
    pager.matchesPage (number * pager.pageSize) pager.pageSize number = true := by
  have isEnd : (number + 1) * pager.pageSize = number * pager.pageSize + pager.pageSize :=
    Nat.succ_mul _ _
  simp [matchesPage, isEnd]

theorem matchingPageCount_of_single {current : WritewaitEntry}
    (queued : pager.writewait = [current]) (number : ℕ) :
    pager.matchingPageCountOnWritewait number = 1 ↔
      pager.matchesPage current.offset current.length number = true := by
  rw [matchingPageCountOnWritewait, queued, List.countP_singleton]
  split_ifs with isMatched <;> simp [isMatched]

/-- The only entry of `WRITEWAIT` is written to the pages that match it. -/
theorem serviceFirstWritewaitEntry_view {current : WritewaitEntry}
    (queued : pager.writewait = [current])
    (done : pager.serviceFirstWritewaitEntry results = some next) :
    SameRest { pager with writewait := [] } next ∧
      (∀ number ∈ pager.pagesOf current.offset current.length,
        pager.matchesPage current.offset current.length number = true →
          (pager.view number).writeBack (current.data (number - current.offset / pager.pageSize))
            current.kernelCopy (results number) = some (next.view number)) ∧
      ∀ other, (other ∈ pager.pagesOf current.offset current.length →
        pager.matchesPage current.offset current.length other = false) →
          next.view other = pager.view other := by
  have distinct : (pager.pagesOf current.offset current.length).Nodup := List.nodup_range'
  have counted := fun number => matchingPageCount_of_single queued number
  unfold serviceFirstWritewaitEntry at done
  rw [queued] at done
  simp only [counted] at done
  generalize isPageouts : (pager.pagesOf current.offset current.length).filter
    (fun number => pager.matchesPage current.offset current.length number = true) = pageouts at done
  have mem_pageouts : ∀ number, number ∈ pageouts ↔
      number ∈ pager.pagesOf current.offset current.length ∧
        pager.matchesPage current.offset current.length number = true := by
    intro number
    rw [← isPageouts, List.mem_filter, decide_eq_true_iff]
  have distinctPageouts : pageouts.Nodup := isPageouts ▸ distinct.filter _
  rcases Option.bind_eq_some_iff.mp done with ⟨written, writeDone, done⟩
  rcases Option.bind_eq_some_iff.mp done with ⟨⟨served, flags⟩, serveDone, done⟩
  rcases Option.map_eq_some_iff.mp done with ⟨notified, notifyDone, rfl⟩
  rcases forEach_onPage distinctPageouts
    (fun number => Page.stable_send _) writeDone with ⟨writeRest, writeOwn, writeFrame⟩
  rcases forEach_onPageFlag distinctPageouts
    (fun number => Page.stable_afterWrite _ _ _ _) serveDone with ⟨serveRest, serveOwn, serveFrame⟩
  rcases forEach_onPage distinct
    (fun number => Page.stable_notifyCall _) notifyDone with ⟨notifyRest, notifyOwn, notifyFrame⟩
  have rest := writeRest.trans (serveRest.trans notifyRest)
  have emptied : notified.writewait.tail = [] := by rw [rest.writewait, queued]; rfl
  have told : ∀ event ∈ notified.sent ++ [.wakeWriteWaiters current.offset current.length],
      event ∈ pager.sent ∨ event.direct? = none := by
    intro event eventMem
    rcases List.mem_append.mp eventMem with before | now
    · exact rest.told event before
    · rw [List.mem_singleton.mp now]
      exact Or.inr rfl
  refine ⟨⟨⟨rest.pageSize, rest.terminating, rest.notifyOnEvict, rest.clients, emptied⟩,
    rest.locks, told⟩, ?_, ?_⟩
  · intro number numberMem isMatched
    have isPageout := (mem_pageouts number).mpr ⟨numberMem, isMatched⟩
    have writesPage := Option.some_inj.mp (writeOwn number isPageout)
    have servesPage := serveOwn number isPageout
    have notifiesPage := Option.some_inj.mp (notifyOwn number numberMem)
    have stillOnly : written.matchingPageCountOnWritewait number = 1 := by
      have isList : written.writewait = [current] := writeRest.writewait.trans queued
      rw [matchingPageCount_of_single isList, matchesPage, writeRest.pageSize]
      exact isMatched
    rw [← writesPage, stillOnly, decide_eq_true rfl] at servesPage
    have sameView := view_emit notified number
      (show eventsOf number [.wakeWriteWaiters current.offset current.length] = [] from rfl)
    rw [Page.writeBack, servesPage]
    exact congrArg some (notifiesPage.trans sameView.symm)
  · intro other notMatched
    have notPageout : other ∉ pageouts := by
      intro isPageout
      rcases (mem_pageouts other).mp isPageout with ⟨otherMem, isMatched⟩
      cases (notMatched otherMem).symm.trans isMatched
    have sameView := view_emit notified other
      (show eventsOf other [.wakeWriteWaiters current.offset current.length] = [] from rfl)
    have sameServed : served.view other = pager.view other := by
      rw [(serveFrame other notPageout).1, writeFrame other notPageout]
    have sameNotified : notified.view other = served.view other := by
      by_cases otherMem : other ∈ pager.pagesOf current.offset current.length
      · have notifiesPage := Option.some_inj.mp (notifyOwn other otherMem)
        have noFlag : flags other = false := (serveFrame other notPageout).2
        dsimp only at notifiesPage
        rw [← notifiesPage, noFlag]
        simp [Page.notifyCall]
      · exact notifyFrame other otherMem
    exact sameView.trans (sameNotified.trans sameServed)

/-- `data_return` queues its entry on an empty `WRITEWAIT` and writes it at once. -/
theorem serviceWritewait_view {entry : WritewaitEntry} (noneQueued : pager.writewait = [])
    (done : serviceWritewait results 1 { pager with writewait := [entry] } = some next) :
    SameRest pager next ∧
      (∀ number ∈ pager.pagesOf entry.offset entry.length,
        pager.matchesPage entry.offset entry.length number = true →
          (pager.view number).writeBack (entry.data (number - entry.offset / pager.pageSize))
            entry.kernelCopy (results number) = some (next.view number)) ∧
      ∀ other, (other ∈ pager.pagesOf entry.offset entry.length →
        pager.matchesPage entry.offset entry.length other = false) →
          next.view other = pager.view other := by
  simp only [serviceWritewait, List.isEmpty_cons, Bool.false_eq_true, if_false] at done
  rcases Option.bind_eq_some_iff.mp done with ⟨written, writeDone, sameEnd⟩
  cases sameEnd
  rcases serviceFirstWritewaitEntry_view (by rfl) writeDone with ⟨rest, own, frame⟩
  exact ⟨⟨⟨rest.pageSize, rest.terminating, rest.notifyOnEvict, rest.clients,
    rest.writewait.trans noneQueued.symm⟩, rest.locks, rest.told⟩, own, frame⟩

theorem dataReturnUnlocks_view {pages : List ℕ} (distinct : pages.Nodup)
    {flags : ℕ → Page.ReturnFlags}
    (done : pager.dataReturnUnlocks pages flags results = some next) :
    SameRest pager next ∧
      (∀ number ∈ pages, ((pager.view number).returnCall (flags number) (results number)).unlockExit
        (flags number).doUnlock (results number) = some (next.view number)) ∧
      ∀ other ∉ pages, next.view other = pager.view other := by
  rcases Option.bind_eq_some_iff.mp done with ⟨called, callDone, exitDone⟩
  rcases forEach_onPage distinct
    (fun number => Page.stable_returnCall (flags number) (results number)) callDone with
    ⟨callRest, callOwn, callFrame⟩
  rcases forEach_onPage distinct
    (fun number => Page.stable_unlockExit (flags number).doUnlock (results number)) exitDone with
    ⟨exitRest, exitOwn, exitFrame⟩
  refine ⟨callRest.trans exitRest, ?_, ?_⟩
  · intro number numberMem
    rw [Option.some_inj.mp (callOwn number numberMem)]
    exact exitOwn number numberMem
  · intro other notMem
    rw [exitFrame other notMem, callFrame other notMem]

theorem dataReturn_view {offset length : ℕ} {data : ℕ → ℕ} {dirty kernelCopy : Bool}
    (noneQueued : dirty = true → pager.writewait = [])
    (done : pager.dataReturn client offset data length dirty kernelCopy results = some next) :
    SameRest pager next ∧ length % pager.pageSize = 0 ∧ offset % pager.pageSize = 0 ∧
      (∃ any,
        (any = true ↔ ∃ number ∈ pager.pagesOf offset length,
          (pager.view number).ReturnFlagged client (data (number - offset / pager.pageSize)) dirty
            kernelCopy) ∧
        ∀ number ∈ pager.pagesOf offset length,
          (dirty = true → pager.matchesPage offset length number = true) →
          (pager.view number).dataReturn client (data (number - offset / pager.pageSize)) dirty
            kernelCopy any (results number) = some (next.view number)) ∧
      (dirty = true → ∀ number ∈ pager.pagesOf offset length,
        pager.matchesPage offset length number = false →
        (pager.view number).dataReturnUnmatched client (data (number - offset / pager.pageSize))
          kernelCopy = some (next.view number)) ∧
      ∀ other ∉ pager.pagesOf offset length, next.view other = pager.view other := by
  unfold dataReturn at done
  by_cases misaligned : length % pager.pageSize ≠ 0 ∨ offset % pager.pageSize ≠ 0
  · rw [if_pos misaligned] at done
    cases done
  rw [if_neg misaligned] at done
  rw [not_or, not_not, not_not] at misaligned
  rcases misaligned with ⟨lengthAligned, offsetAligned⟩
  rcases Option.bind_eq_some_iff.mp done with ⟨⟨entered, flags⟩, enterDone, done⟩
  rcases Option.bind_eq_some_iff.mp done with ⟨unlocked, unlockDone, done⟩
  have distinct : (pager.pagesOf offset length).Nodup := List.nodup_range'
  rcases forEach_onPageFlag distinct
    (fun number => Page.stable_dataReturnEnter client _ dirty kernelCopy) enterDone with
    ⟨enterRest, enterOwn, enterFrame⟩
  simp only at unlockDone done enterRest enterOwn enterFrame
  have flagged : (∃ number ∈ pager.pagesOf offset length,
        (pager.view number).ReturnFlagged client (data (number - offset / pager.pageSize)) dirty
          kernelCopy) ↔
      ∃ number ∈ pager.pagesOf offset length,
        (flags number).doUnlock = true ∨ (flags number).doNotify = true := by
    refine exists_congr fun number => and_congr_right fun numberMem => ?_
    rw [Page.ReturnFlagged, enterOwn number numberMem]
    simp
  rw [flagged]
  by_cases anyPage : ∃ number ∈ pager.pagesOf offset length,
      (flags number).doUnlock = true ∨ (flags number).doNotify = true
  · rw [if_pos anyPage] at unlockDone
    cases dirty with
    | true => cases unlockDone
    | false =>
        cases done
        rcases dataReturnUnlocks_view distinct unlockDone with ⟨unlockRest, unlockOwn, unlockFrame⟩
        refine ⟨enterRest.trans unlockRest, lengthAligned, offsetAligned,
          ⟨true, iff_of_true rfl anyPage, ?_⟩,
          fun isDirty => absurd isDirty Bool.false_ne_true, ?_⟩
        · intro number numberMem _
          rw [Page.dataReturn, enterOwn number numberMem]
          exact unlockOwn number numberMem
        · intro other notMem
          rw [unlockFrame other notMem, (enterFrame other notMem).1]
  · rw [if_neg anyPage] at unlockDone
    cases unlockDone
    have noFlags : ∀ number ∈ pager.pagesOf offset length,
        (flags number).doUnlock = false ∧ (flags number).doNotify = false := by
      intro number numberMem
      constructor
      · exact Bool.eq_false_iff.mpr fun set => anyPage ⟨number, numberMem, Or.inl set⟩
      · exact Bool.eq_false_iff.mpr fun set => anyPage ⟨number, numberMem, Or.inr set⟩
    cases dirty with
    | false =>
        cases done
        refine ⟨enterRest, lengthAligned, offsetAligned,
          ⟨false, iff_of_false Bool.false_ne_true anyPage, ?_⟩,
          fun isDirty => absurd isDirty Bool.false_ne_true, fun other notMem =>
            (enterFrame other notMem).1⟩
        intro number numberMem _
        rw [Page.dataReturn, enterOwn number numberMem]
        simp [noFlags number numberMem]
    | true =>
        have stillNone : entered.writewait = [] := enterRest.writewait.trans (noneQueued rfl)
        simp only [stillNone, List.nil_append, List.isEmpty_nil, not_true_eq_false, if_true,
          if_false, List.length_singleton] at done
        have pagesEq : entered.pagesOf offset length = pager.pagesOf offset length := by
          rw [pagesOf, pagesOf, enterRest.pageSize]
        have matchesEq : ∀ number, entered.matchesPage offset length number =
            pager.matchesPage offset length number := by
          intro number
          rw [matchesPage, matchesPage, enterRest.pageSize]
        rcases serviceWritewait_view stillNone done with ⟨writeRest, writeOwn, writeFrame⟩
        simp only [pagesEq, matchesEq, enterRest.pageSize] at writeOwn writeFrame
        refine ⟨enterRest.trans writeRest, lengthAligned, offsetAligned,
          ⟨false, iff_of_false Bool.false_ne_true anyPage, ?_⟩, fun _ => ?_, ?_⟩
        · intro number numberMem isMatched
          rw [Page.dataReturn, enterOwn number numberMem]
          have writesPage := writeOwn number numberMem (isMatched rfl)
          simpa [noFlags number numberMem] using writesPage
        · intro number numberMem notMatched
          rw [Page.dataReturnUnmatched, enterOwn number numberMem,
            writeFrame number fun _ => notMatched]
          simp [noFlags number numberMem]
        · intro other notMem
          rw [writeFrame other fun otherMem => absurd otherMem notMem, (enterFrame other notMem).1]

end DataReturn

section LockRecords

variable {client : MachPort} {results : Callbacks}

/-- Internal flushes are outstanding on the records of single pages only. -/
def NoInternalElsewhere (pager : Pager) : Prop :=
  ∀ key, (∀ number, key ≠ pager.pageKey number) →
    ∀ locks, pager.outstandingLocks.find? key = some locks →
      ∀ client record, locks.find? client = some record → record.internalLockOutstanding = false

theorem SameRest.noInternalElsewhere (rest : SameRest pager next)
    (noInternal : pager.NoInternalElsewhere) : next.NoInternalElsewhere := by
  intro key notPage locks found
  have notPageBefore : ∀ number, key ≠ pager.pageKey number := by
    intro number
    rw [← rest.pageKey]
    exact notPage number
  rw [rest.locks key notPageBefore] at found
  exact noInternal key notPageBefore locks found

theorem find?_storeLocks (pager : Pager) (key other : LockKey)
    (locks : OrdMap MachPort OutstandingClientLock) :
    (pager.storeLocks key locks).outstandingLocks.find? other =
      if other = key then if locks.isEmpty then none else some locks
      else pager.outstandingLocks.find? other := by
  unfold storeLocks
  split_ifs with empty same
  · simp [find?_setLocks, same]
  · simp [find?_setLocks, same, emit]
  · simp_all [find?_setLocks]
  · simp_all [find?_setLocks]

theorem sameCore_storeLocks (pager : Pager) (key : LockKey)
    (locks : OrdMap MachPort OutstandingClientLock) :
    SameCore pager (pager.storeLocks key locks) := by
  unfold storeLocks
  split_ifs <;> exact ⟨rfl, rfl, rfl, rfl, rfl⟩

theorem view_storeLocks_self (pager : Pager) (number : ℕ)
    (locks : OrdMap MachPort OutstandingClientLock) :
    (pager.storeLocks (pager.pageKey number) locks).view number =
      (pager.view number).storeLocks locks := by
  unfold storeLocks Page.storeLocks
  split_ifs with empty
  · refine (view_setLocks_self (pager.emit (.wakeLockWaiters (pager.pageKey number)))
      (pager.pageKey number) none rfl).trans ?_
    rw [view_emit]
    rfl
  · exact view_setLocks_self pager (pager.pageKey number) (some locks) rfl

theorem view_storeLocks_of_ne (pager : Pager) {key : LockKey} {number : ℕ}
    (keyNe : key ≠ pager.pageKey number) (locks : OrdMap MachPort OutstandingClientLock) :
    (pager.storeLocks key locks).view number = pager.view number := by
  unfold storeLocks
  split_ifs with empty
  · rw [view_setLocks_of_ne _ _ _ (by exact keyNe)]
    exact view_emit pager number rfl
  · rw [view_setLocks_of_ne _ _ _ keyNe]

/-- Storing a record keeps internal flushes to the records of pages. -/
theorem noInternalElsewhere_storeLocks (noInternal : pager.NoInternalElsewhere) {key : LockKey}
    {locks : OrdMap MachPort OutstandingClientLock}
    (kept : (∀ number, key ≠ pager.pageKey number) → ∀ client record,
      locks.find? client = some record → record.internalLockOutstanding = false) :
    (pager.storeLocks key locks).NoInternalElsewhere := by
  intro other notPage found otherLocks client record
  have core := pager.sameCore_storeLocks key locks
  simp only [core.pageKey] at notPage
  rw [find?_storeLocks] at otherLocks
  by_cases same : other = key
  · subst same
    rw [if_pos rfl] at otherLocks
    split_ifs at otherLocks
    cases otherLocks
    exact kept notPage client record
  · rw [if_neg same] at otherLocks
    exact noInternal other notPage found otherLocks client record

/-- `internal_lock_completed` after a record of a page has been stored. -/
theorem internalLockCompleted_storeLocks_view (noInternal : pager.NoInternalElsewhere)
    {number : ℕ} {locks : OrdMap MachPort OutstandingClientLock}
    (done : (pager.storeLocks (pager.pageKey number) locks).internalLockCompleted client
      (number * pager.pageSize) pager.pageSize results = some next) :
    SameCore pager next ∧ next.NoInternalElsewhere ∧
      ((pager.view number).storeLocks locks).internalLockCompleted client (results number) =
        some (next.view number) ∧
      ∀ other ≠ number, next.view other = pager.view other := by
  have core := pager.sameCore_storeLocks (pager.pageKey number) locks
  have stillNone : (pager.storeLocks (pager.pageKey number) locks).NoInternalElsewhere :=
    noInternalElsewhere_storeLocks noInternal fun notPage => absurd rfl (notPage number)
  rw [← core.pageSize] at done
  rcases internalLockCompleted_view done with ⟨rest, own, frame⟩
  rw [view_storeLocks_self] at own
  refine ⟨core.trans rest.toSameCore, rest.noInternalElsewhere stillNone, own, ?_⟩
  intro other different
  rw [frame other different, view_storeLocks_of_ne]
  exact fun same => different (pager.pageKey_injective same).symm

theorem pageKey_eq_iff {offset length number : ℕ} :
    (toLex (offset, length) : LockKey) = pager.pageKey number ↔
      offset = number * pager.pageSize ∧ length = pager.pageSize := by
  simp [pageKey]

theorem lockCompleted_view (noInternal : pager.NoInternalElsewhere) {offset length : ℕ}
    (done : pager.lockCompleted client offset length results = some next) :
    SameCore pager next ∧ next.NoInternalElsewhere ∧
      ((∃ number, (toLex (offset, length) : LockKey) = pager.pageKey number ∧
          (pager.view number).lockCompleted client (results number) = some (next.view number) ∧
          ∀ other ≠ number, next.view other = pager.view other) ∨
        (∀ number, (toLex (offset, length) : LockKey) ≠ pager.pageKey number) ∧
          ∀ number, next.view number = pager.view number) := by
  unfold lockCompleted at done
  simp only at done
  cases found : pager.outstandingLocks.find? (toLex (offset, length) : LockKey) with
  | none =>
      rw [found] at done
      cases done
  | some locks =>
      rw [found] at done
      simp only at done
      cases record? : locks.find? client with
      | none =>
          rw [record?] at done
          cases done
      | some record =>
          rw [record?] at done
          simp only at done
          by_cases isPage : ∃ number, (toLex (offset, length) : LockKey) = pager.pageKey number
          · rcases isPage with ⟨number, keyEq⟩
            rcases pageKey_eq_iff.mp keyEq with ⟨rfl, rfl⟩
            rw [keyEq] at found done
            have pageLocks : (pager.view number).locks = some locks := found
            have pageLock : (pager.view number).lock? client = some record := by
              rw [Page.lock?, pageLocks]
              exact record?
            have distinctKeys : ∀ other ≠ number, pager.pageKey number ≠ pager.pageKey other :=
              fun other different same => different (pager.pageKey_injective same).symm
            have storedCore := pager.sameCore_storeLocks (pager.pageKey number)
            have storedNone : ∀ stored,
                (pager.storeLocks (pager.pageKey number) stored).NoInternalElsewhere :=
              fun stored => noInternalElsewhere_storeLocks noInternal
                fun notPage => absurd rfl (notPage number)
            split_ifs at done with zero one internal
            · rcases internalLockCompleted_storeLocks_view noInternal done with
                ⟨core, none, own, frame⟩
              refine ⟨core, none, Or.inl ⟨number, keyEq, ?_, frame⟩⟩
              simp [Page.lockCompleted, pageLock, pageLocks, one, internal, own]
            · cases done
              refine ⟨storedCore _, storedNone _, Or.inl ⟨number, keyEq, ?_, ?_⟩⟩
              · simp [Page.lockCompleted, pageLock, pageLocks, one, internal, view_storeLocks_self]
              · exact fun other different =>
                  view_storeLocks_of_ne pager (distinctKeys other different) _
            · cases done
              refine ⟨storedCore _, storedNone _, Or.inl ⟨number, keyEq, ?_, ?_⟩⟩
              · simp [Page.lockCompleted, pageLock, pageLocks, zero, one, view_storeLocks_self]
              · exact fun other different =>
                  view_storeLocks_of_ne pager (distinctKeys other different) _
          · have notPage : ∀ number, (toLex (offset, length) : LockKey) ≠ pager.pageKey number :=
              fun number same => isPage ⟨number, same⟩
            have external := noInternal _ notPage locks found
            have notInternal : record.internalLockOutstanding = false := external client record record?
            simp only [notInternal, Bool.false_eq_true, if_false] at done
            split_ifs at done with zero one
            · cases done
              refine ⟨pager.sameCore_storeLocks _ _, noInternalElsewhere_storeLocks noInternal ?_,
                Or.inr ⟨notPage, fun number => view_storeLocks_of_ne pager (notPage number) _⟩⟩
              intro _ other otherRecord otherFound
              rw [OrdMap.find?_erase] at otherFound
              split_ifs at otherFound
              exact external other otherRecord otherFound
            · cases done
              refine ⟨pager.sameCore_storeLocks _ _, noInternalElsewhere_storeLocks noInternal ?_,
                Or.inr ⟨notPage, fun number => view_storeLocks_of_ne pager (notPage number) _⟩⟩
              intro _ other otherRecord otherFound
              rw [OrdMap.find?_insert] at otherFound
              split_ifs at otherFound
              · cases otherFound
                rfl
              · exact external other otherRecord otherFound

/-- The lock loop of `drop_client` on one record. -/
theorem dropLocks_view (noInternal : pager.NoInternalElsewhere) {key : LockKey}
    (done : pager.dropLocks client key results = some next) :
    SameCore pager next ∧ next.NoInternalElsewhere ∧
      (∀ number, pager.pageKey number = key →
        (pager.view number).dropLocks client (results number) = some (next.view number)) ∧
      ∀ other, pager.pageKey other ≠ key → next.view other = pager.view other := by
  unfold dropLocks at done
  cases found : pager.outstandingLocks.find? key with
  | none =>
      rw [found] at done
      cases done
      refine ⟨.refl pager, noInternal, ?_, fun _ _ => rfl⟩
      intro number keyEq
      have pageLocks : (pager.view number).locks = none := by
        rw [← keyEq] at found
        exact found
      rw [Page.dropLocks, pageLocks]
  | some locks =>
      rw [found] at done
      simp only at done
      by_cases isPage : ∃ number, pager.pageKey number = key
      · rcases isPage with ⟨number, rfl⟩
        have pageLocks : (pager.view number).locks = some locks := found
        split_ifs at done with internal
        · rcases internalLockCompleted_storeLocks_view noInternal done with ⟨core, none, own, frame⟩
          refine ⟨core, none, ?_, ?_⟩
          · intro other keyEq
            rcases pager.pageKey_injective keyEq with rfl
            simpa [Page.dropLocks, pageLocks, internal] using own
          · exact fun other keyNe => frame other fun same => keyNe (by rw [same])
        · cases done
          refine ⟨pager.sameCore_storeLocks _ _,
            noInternalElsewhere_storeLocks noInternal fun notPage => absurd rfl (notPage number),
            ?_, fun other keyNe => view_storeLocks_of_ne pager (Ne.symm keyNe) _⟩
          intro other keyEq
          rcases pager.pageKey_injective keyEq with rfl
          simp [Page.dropLocks, pageLocks, internal, view_storeLocks_self]
      · have notPage : ∀ number, key ≠ pager.pageKey number :=
          fun number same => isPage ⟨number, same.symm⟩
        have external := noInternal key notPage locks found
        have notInternal :
            ((locks.find? client).map (·.internalLockOutstanding)).getD false = false := by
          cases record? : locks.find? client with
          | none => rfl
          | some record => exact external client record record?
        rw [notInternal] at done
        cases done
        refine ⟨pager.sameCore_storeLocks _ _, noInternalElsewhere_storeLocks noInternal ?_,
          fun number same => absurd same.symm (notPage number),
          fun other keyNe => view_storeLocks_of_ne pager (Ne.symm keyNe) _⟩
        intro _ other otherRecord otherFound
        rw [OrdMap.find?_erase] at otherFound
        split_ifs at otherFound
        exact external other otherRecord otherFound

theorem forEach_dropLocks_view {keys : List LockKey} (distinct : keys.Nodup)
    (noInternal : pager.NoInternalElsewhere)
    (done : Loop.forEach (fun key pager => pager.dropLocks client key results) keys pager =
      some next) :
    SameCore pager next ∧ next.NoInternalElsewhere ∧
      (∀ number, pager.pageKey number ∈ keys →
        (pager.view number).dropLocks client (results number) = some (next.view number)) ∧
      ∀ other, pager.pageKey other ∉ keys → next.view other = pager.view other := by
  induction keys generalizing pager with
  | nil =>
      cases done
      exact ⟨.refl _, noInternal, by simp, fun _ _ => rfl⟩
  | cons head tail ih =>
      rcases List.nodup_cons.mp distinct with ⟨headNotMem, tailDistinct⟩
      rcases Option.bind_eq_some_iff.mp done with ⟨middle, headDone, tailDone⟩
      rcases dropLocks_view noInternal headDone with ⟨headCore, headNone, headOwn, headFrame⟩
      rcases ih tailDistinct headNone tailDone with ⟨tailCore, tailNone, tailOwn, tailFrame⟩
      simp only [headCore.pageKey] at tailOwn tailFrame
      refine ⟨headCore.trans tailCore, tailNone, ?_, ?_⟩
      · intro number keyMem
        by_cases same : pager.pageKey number = head
        · rw [tailFrame number (same ▸ headNotMem)]
          exact headOwn number same
        · have inTail := (List.mem_cons.mp keyMem).resolve_left same
          rw [← headFrame number same]
          exact tailOwn number inTail
      · intro other notMem
        rw [List.mem_cons, not_or] at notMem
        rw [tailFrame other notMem.2, headFrame other notMem.1]

/-- What `drop_client` changes apart from the pages. -/
theorem dropClient_view (noInternal : pager.NoInternalElsewhere)
    (done : pager.dropClient client results = some next) :
    next.pageSize = pager.pageSize ∧ next.terminating = pager.terminating ∧
      next.writewait = pager.writewait ∧ next.clients = pager.clients.erase client ∧
      next.NoInternalElsewhere ∧
      ∀ number, (pager.view number).handle (.dropClient client) (results number) =
        some (next.view number) := by
  rcases Option.map_eq_some_iff.mp done with ⟨dropped, loopDone, rfl⟩
  rcases forEach_dropLocks_view pager.outstandingLocks.keys_nodup noInternal loopDone with
    ⟨core, none, own, frame⟩
  refine ⟨core.pageSize, core.terminating, core.writewait,
    congrArg (OrdSet.erase client) core.clients, none, ?_⟩
  intro number
  have pageDropped :
      (pager.view number).dropLocks client (results number) = some (dropped.view number) := by
    by_cases recorded : pager.pageKey number ∈ pager.outstandingLocks.keys
    · exact own number recorded
    · have pageLocks : (pager.view number).locks = Option.none := by
        rw [OrdMap.mem_keys_iff, Option.not_isSome_iff_eq_none] at recorded
        exact recorded
      rw [frame number recorded, Page.dropLocks, pageLocks]
  have noPageEvent : ∀ requests : List OutstandingChangeRequest,
      eventsOf number (requests.map fun request => Event.changeCompleted request.reply) = [] := by
    intro requests
    simp [eventsOf]
  rw [Page.handle, pageDropped, Option.map_some]
  congr 1
  simp only [view, page, eventsOf_append, noPageEvent, List.append_nil]
  unfold Page.dropClient
  split_ifs <;> rfl

theorem view_countLock_self {key : LockKey} {number : ℕ} (keyEq : key = pager.pageKey number)
    (client : MachPort) :
    (pager.countLock key client).view number = (pager.view number).countLock client := by
  subst keyEq
  refine (view_setLocks_self pager _ _ rfl).trans ?_
  have pageLocks : (pager.view number).locks =
      pager.outstandingLocks.find? (pager.pageKey number) := rfl
  rw [Page.countLock, Page.lock?, pageLocks]
  cases pager.outstandingLocks.find? (pager.pageKey number) <;> rfl

theorem noInternalElsewhere_countLock (noInternal : pager.NoInternalElsewhere) (key : LockKey)
    (client : MachPort) : (pager.countLock key client).NoInternalElsewhere := by
  intro other notPage locks found otherClient record recorded
  have notPageBefore : ∀ number, other ≠ pager.pageKey number := notPage
  rw [countLock, find?_setLocks] at found
  split_ifs at found with same
  · subst same
    cases found
    rw [OrdMap.find?_insert] at recorded
    cases before : pager.outstandingLocks.find? other with
    | none =>
        rw [before] at recorded
        split_ifs at recorded
        · cases recorded
          rfl
        · cases recorded
    | some locks =>
        rw [before] at recorded
        have external := noInternal other notPageBefore locks before
        split_ifs at recorded with sameClient
        · cases recorded
          cases record? : locks.find? client with
          | none => simp [record?]
          | some record => simp [record?, external client record record?]
        · exact external otherClient record recorded
  · exact noInternal other notPageBefore locks found otherClient record recorded

/-- One pass of `lock_object` counts a lock on the record of its own range. -/
theorem signal_view (noInternal : pager.NoInternalElsewhere) (offset length : ℕ)
    (shouldReturn : MemoryObjectReturn) (flush sync : Bool) (client : MachPort) :
    SameCore pager (pager.signal offset length shouldReturn flush sync client) ∧
      (pager.signal offset length shouldReturn flush sync client).NoInternalElsewhere ∧
      ∀ number, (pager.signal offset length shouldReturn flush sync client).view number =
        if sync ∧ (toLex (offset, length) : LockKey) = pager.pageKey number then
          (pager.view number).countLock client
        else pager.view number := by
  unfold signal
  cases sync with
  | false => exact ⟨⟨rfl, rfl, rfl, rfl, rfl⟩, noInternal, fun number => view_emit pager number rfl⟩
  | true =>
      refine ⟨⟨rfl, rfl, rfl, rfl, rfl⟩, noInternalElsewhere_countLock noInternal _ _, ?_⟩
      intro number
      have emitted : (pager.emit
          (.lockRequest client offset length shouldReturn flush vmProtNoChange true)).view number =
          pager.view number := view_emit pager number rfl
      by_cases keyEq : (toLex (offset, length) : LockKey) = pager.pageKey number
      · simp only [if_true, keyEq, and_self]
        refine (view_countLock_self (by rfl) client).trans ?_
        rw [emitted]
      · simp only [if_true, keyEq, and_false, if_false]
        rw [countLock, view_setLocks_of_ne _ _ _ (by exact keyEq), emitted]

theorem mem_foldl_insert {client : MachPort} (clients : List MachPort) (start : OrdSet MachPort) :
    client ∈ clients.foldl (fun set client => set.insert client) start ↔
      client ∈ start ∨ client ∈ clients := by
  induction clients generalizing start with
  | nil => simp
  | cons head tail ih =>
      rw [List.foldl_cons, ih, OrdSet.mem_insert, List.mem_cons]
      tauto

/-- The clients of a page that `lock_object` signals for it. -/
def SignalsFor (pager : Pager) (shouldReturn : MemoryObjectReturn) (flush : Bool) (number : ℕ)
    (client : MachPort) : Prop :=
  client ∈ (pager.pagemap number).accesslist ∧
    (flush = false → shouldReturn ≠ .all → (pager.pagemap number).writeAccessGranted = true)

/-- `lock_object` signals the clients of the pages in its loop. -/
theorem mem_lockObjectClients_iff {offset length : ℕ} {shouldReturn : MemoryObjectReturn}
    {flush : Bool} {client : MachPort} :
    client ∈ pager.lockObjectClients offset length shouldReturn flush ↔
      ∃ number ∈ pager.pagesOf offset length,
        pager.SignalsFor shouldReturn flush number client := by
  have selected : ∀ number,
      (!(!flush && decide (shouldReturn ≠ .all)) || (pager.pagemap number).writeAccessGranted) =
          true ↔
        (flush = false → shouldReturn ≠ .all →
          (pager.pagemap number).writeAccessGranted = true) := by
    intro number
    cases flush <;> cases shouldReturn <;> simp
  suffices loop : ∀ (pages : List ℕ) (start : OrdSet MachPort),
      client ∈ pages.foldl (fun clients number =>
        if !(!flush && decide (shouldReturn ≠ .all)) || (pager.pagemap number).writeAccessGranted
        then (pager.pagemap number).accesslist.toList.foldl
          (fun clients client => clients.insert client) clients
        else clients) start ↔
      client ∈ start ∨ ∃ number ∈ pages, pager.SignalsFor shouldReturn flush number client by
    refine (loop _ ∅).trans (or_iff_right ?_)
    exact OrdSet.not_mem_empty client
  intro pages
  induction pages with
  | nil => simp
  | cons number rest ih =>
      intro start
      rw [List.foldl_cons, ih, List.exists_mem_cons_iff, ← or_assoc]
      refine or_congr_left ?_
      split_ifs with isSelected
      · rw [mem_foldl_insert]
        refine or_congr_right ?_
        exact (and_iff_left ((selected number).mp isSelected)).symm
      · refine (or_iff_left ?_).symm
        exact fun signals => isSelected ((selected number).mpr signals.2)

theorem mem_lockObjectClients {offset length : ℕ} {shouldReturn : MemoryObjectReturn}
    {flush : Bool} {client : MachPort}
    (signalled : client ∈ (pager.lockObjectClients offset length shouldReturn flush).toList) :
    ∃ number, client ∈ (pager.pagemap number).accesslist := by
  rcases mem_lockObjectClients_iff.mp signalled with ⟨number, -, signals⟩
  exact ⟨number, signals.1⟩

/-- The loop of `lock_object` over the clients it signals. -/
theorem foldl_signal_view (noInternal : pager.NoInternalElsewhere) (offset length : ℕ)
    (shouldReturn : MemoryObjectReturn) (flush sync : Bool) (clients : List MachPort) :
    SameCore pager (clients.foldl (signal offset length shouldReturn flush sync) pager) ∧
      (clients.foldl (signal offset length shouldReturn flush sync)
        pager).NoInternalElsewhere ∧
      ∀ number, (clients.foldl (signal offset length shouldReturn flush sync) pager).view number =
        if sync ∧ (toLex (offset, length) : LockKey) = pager.pageKey number then
          clients.foldl Page.countLock (pager.view number)
        else pager.view number := by
  induction clients generalizing pager with
  | nil => exact ⟨.refl _, noInternal, fun _ => by simp⟩
  | cons client rest ih =>
      rcases signal_view noInternal offset length shouldReturn flush sync client with
        ⟨headCore, headNone, headView⟩
      rcases ih headNone with ⟨tailCore, tailNone, tailView⟩
      refine ⟨headCore.trans tailCore, tailNone, fun number => ?_⟩
      rw [List.foldl_cons, tailView, headCore.pageKey, headView]
      split_ifs <;> rfl

end LockRecords

/-- What holds between two handlers. -/
structure Quiet (pager : Pager) : Prop where
  writewait : pager.writewait = []
  noInternalElsewhere : pager.NoInternalElsewhere

theorem create_quiet (pageSize : ℕ) (pageSize_pos : 0 < pageSize) (mayCache : Bool)
    (copyStrategy : ℕ) (notifyOnEvict : Bool) :
    (create pageSize pageSize_pos mayCache copyStrategy notifyOnEvict).Quiet := by
  refine ⟨rfl, ?_⟩
  intro key _ locks found
  cases found

/-- The handler of page `number` that an input amounts to. -/
inductive Reaches (pager : Pager) : Input → ℕ → PageInput → Prop
  | dataRequest {client offset access} (running : pager.terminating = false)
      (aligned : offset % pager.pageSize = 0) :
      Reaches pager (.dataRequest client offset pager.pageSize access) (offset / pager.pageSize)
        (.dataRequest client (wantsWrite access))
  | dataUnlock {client offset length number} (others : List MachPort)
      (othersListed : ∀ other ∈ others, ∃ number, other ∈ (pager.pagemap number).accesslist)
      (running : pager.terminating = false) (aligned : offset % pager.pageSize = 0)
      (numberMem : number ∈ pager.pagesOf offset length) :
      Reaches pager (.dataUnlock client offset length) number
        (.dataUnlock client (number = offset / pager.pageSize) others)
  | dataReturn {client offset data length dirty kernelCopy number} (any : Bool)
      (aligned : offset % pager.pageSize = 0)
      (numberMem : number ∈ pager.pagesOf offset length)
      (isMatched : dirty = true → pager.matchesPage offset length number = true) :
      Reaches pager (.dataReturn client offset data length dirty kernelCopy) number
        (.dataReturn client (data (number - offset / pager.pageSize)) dirty kernelCopy any)
  | dataReturnUnmatched {client offset data length kernelCopy number}
      (aligned : offset % pager.pageSize = 0)
      (numberMem : number ∈ pager.pagesOf offset length)
      (notMatched : pager.matchesPage offset length number = false) :
      Reaches pager (.dataReturn client offset data length true kernelCopy) number
        (.dataReturnUnmatched client (data (number - offset / pager.pageSize)) kernelCopy)
  | lockCompleted {client number} :
      Reaches pager (.lockCompleted client (number * pager.pageSize) pager.pageSize) number
        (.lockCompleted client)
  | objectTerminate {control} (number : ℕ) :
      Reaches pager (.objectTerminate control) number (.dropClient control)
  | deadName {control} (number : ℕ) : Reaches pager (.deadName control) number (.dropClient control)
  | lockObject {number shouldReturn flush} (clients : List MachPort)
      (clientsListed : ∀ client ∈ clients, ∃ number, client ∈ (pager.pagemap number).accesslist) :
      Reaches pager
        (.lockObject (number * pager.pageSize) pager.pageSize shouldReturn flush true) number
        (.lockObject clients)
  | shutdown (number : ℕ) : Reaches pager .shutdown number .shutdown

section Handle

variable {input : Input} {results : Callbacks}

/-- A page keeps what it has, or runs the handler that the input amounts to. -/
def Projects (pager : Pager) (input : Input) (results : Callbacks) (next : Pager)
    (number : ℕ) : Prop :=
  next.view number = pager.page number ∨
    ∃ pageInput, Reaches pager input number pageInput ∧
      (pager.page number).handle pageInput (results number) = some (next.view number)

/-- Every page of a dirty return is written. -/
def WritesEach (pager : Pager) : Input → Prop
  | .dataReturn _ offset _ length true _ =>
      ∀ number ∈ pager.pagesOf offset length, pager.matchesPage offset length number = true
  | _ => True

theorem Projects.pagingout {number : ℕ} (projects : Projects pager input results next number)
    (writes : pager.WritesEach input) (before : (pager.pagemap number).pagingout = false) :
    (next.pagemap number).pagingout = false := by
  rcases projects with same | ⟨pageInput, reaches, handled⟩
  · have entryEq := congrArg (fun page : Page => page.entry.pagingout) same
    exact entryEq.trans before
  · refine Page.handle_pagingout before ?_ handled
    rintro client data kernelCopy rfl
    cases reaches with
    | dataReturnUnmatched _ numberMem notMatched =>
        cases notMatched.symm.trans (writes number numberMem)

end Handle

/-- What a handler does to each page is what `Page.handle` does to it. -/
theorem handle_view {input : Input} {results : Callbacks} (quiet : pager.Quiet)
    (handled : pager.handle (input, results) = some next) :
    next.Quiet ∧ next.pageSize = pager.pageSize ∧
      (input ≠ .shutdown → next.terminating = pager.terminating) ∧
      ∀ number, Projects pager input results next number := by
  -- a handler starts with nothing sent
  have started : ∀ number, ({ pager with sent := [] } : Pager).view number = pager.page number :=
    fun _ => rfl
  have noInternal : ({ pager with sent := [] } : Pager).NoInternalElsewhere :=
    quiet.noInternalElsewhere
  suffices projected : next.pageSize = pager.pageSize ∧
      (input ≠ .shutdown → next.terminating = pager.terminating) ∧
      next.writewait = pager.writewait ∧ next.NoInternalElsewhere ∧
      ∀ number, Projects pager input results next number by
    rcases projected with ⟨sameSize, terminating, writewait, noInternal, projects⟩
    exact ⟨⟨writewait.trans quiet.writewait, noInternal⟩, sameSize, terminating, projects⟩
  cases input with
  | objectInit control pagesize =>
      simp only [handle, objectInit] at handled
      split_ifs at handled
      · cases handled
        exact ⟨rfl, fun _ => rfl, rfl, noInternal, fun number => Or.inl (started number)⟩
      · cases handled
        exact ⟨rfl, fun _ => rfl, rfl, noInternal, fun number => Or.inl (view_emit _ number rfl)⟩
  | dataRequest client offset length access =>
      simp only [handle, dataRequest] at handled
      split_ifs at handled with misaligned terminating
      · cases handled
        exact ⟨rfl, fun _ => rfl, rfl, noInternal, fun number => Or.inl (started number)⟩
      · rw [not_or, not_not, not_not] at misaligned
        rcases misaligned with ⟨rfl, aligned⟩
        have rest := sameRest_onPage handled
        refine ⟨rest.pageSize, fun _ => rest.terminating, rest.writewait,
          rest.noInternalElsewhere noInternal, ?_⟩
        intro number
        rcases Option.map_eq_some_iff.mp handled with ⟨page, requested, rfl⟩
        by_cases same : number = offset / pager.pageSize
        · subst same
          have stored := view_setPage_self { pager with sent := [] } (offset / pager.pageSize) page
          have constants := Page.dataRequest_constants requested
          refine Or.inr ⟨_, .dataRequest (Bool.eq_false_iff.mpr terminating) aligned, ?_⟩
          rw [stored, Page.rebase_eq_after (by exact constants)]
          exact requested
        · exact Or.inl (view_setPage_of_ne _ _ _ same)
  | dataUnlock client offset length =>
      rcases dataUnlock_view handled with ⟨rest, ⟨_, rfl⟩ | ⟨running, _, aligned, own, frame⟩⟩
      · exact ⟨rfl, fun _ => rfl, rfl, noInternal, fun number => Or.inl (started number)⟩
      · refine ⟨rest.pageSize, fun _ => rest.terminating, rest.writewait,
          rest.noInternalElsewhere noInternal, ?_⟩
        intro number
        by_cases numberMem : number ∈ pager.pagesOf offset length
        · rcases own number numberMem with ⟨others, othersListed, unlocked⟩
          have listed : ∀ other ∈ others, ∃ number, other ∈ (pager.pagemap number).accesslist := by
            intro other otherMem
            rcases othersListed other otherMem with ⟨later, -, -, -, isListed⟩
            exact ⟨later, isListed⟩
          exact Or.inr ⟨_, .dataUnlock others listed running aligned numberMem, unlocked⟩
        · exact Or.inl (frame number numberMem)
  | dataReturn client offset data length dirty kernelCopy =>
      have noneQueued : ({ pager with sent := [] } : Pager).writewait = [] := quiet.writewait
      rcases dataReturn_view (fun _ => noneQueued) handled with
        ⟨rest, _, aligned, ⟨any, -, own⟩, unmatched, frame⟩
      refine ⟨rest.pageSize, fun _ => rest.terminating, rest.writewait,
          rest.noInternalElsewhere noInternal, ?_⟩
      intro number
      by_cases numberMem : number ∈ pager.pagesOf offset length
      · by_cases isMatched : dirty = true → pager.matchesPage offset length number = true
        · exact Or.inr ⟨_, .dataReturn any aligned numberMem isMatched,
            own number numberMem isMatched⟩
        · rw [Classical.not_imp, Bool.not_eq_true] at isMatched
          rcases isMatched with ⟨rfl, notMatched⟩
          exact Or.inr ⟨_, .dataReturnUnmatched aligned numberMem notMatched,
            unmatched rfl number numberMem notMatched⟩
      · exact Or.inl (frame number numberMem)
  | lockCompleted client offset length =>
      rcases lockCompleted_view noInternal handled with
        ⟨core, none, ⟨number, keyEq, own, frame⟩ | ⟨-, frame⟩⟩
      · refine ⟨core.pageSize, fun _ => core.terminating, core.writewait, none, ?_⟩
        rcases pageKey_eq_iff.mp keyEq with ⟨rfl, rfl⟩
        intro other
        by_cases same : other = number
        · subst same
          exact Or.inr ⟨_, .lockCompleted, own⟩
        · exact Or.inl (frame other same)
      · exact ⟨core.pageSize, fun _ => core.terminating, core.writewait, none,
          fun number => Or.inl (frame number)⟩
  | objectTerminate control =>
      rcases dropClient_view noInternal handled with
        ⟨sameSize, terminating, writewait, _, none, views⟩
      exact ⟨sameSize, fun _ => terminating, writewait, none,
        fun number => Or.inr ⟨_, .objectTerminate number, views number⟩⟩
  | deadName control =>
      rcases dropClient_view noInternal handled with
        ⟨sameSize, terminating, writewait, _, none, views⟩
      exact ⟨sameSize, fun _ => terminating, writewait, none,
        fun number => Or.inr ⟨_, .deadName number, views number⟩⟩
  | lockObject offset length shouldReturn flush sync =>
      cases handled
      rcases foldl_signal_view noInternal offset length shouldReturn flush
        sync (({ pager with sent := [] } : Pager).lockObjectClients offset length shouldReturn
          flush).toList with ⟨core, none, views⟩
      refine ⟨core.pageSize, fun _ => core.terminating, core.writewait, none, ?_⟩
      intro number
      have viewEq := views number
      split_ifs at viewEq with counted
      · rcases counted with ⟨rfl, keyEq⟩
        rcases pageKey_eq_iff.mp keyEq with ⟨rfl, rfl⟩
        exact Or.inr ⟨_, .lockObject _ fun client => mem_lockObjectClients,
          congrArg some viewEq.symm⟩
      · exact Or.inl viewEq
  | shutdown =>
      cases handled
      exact ⟨rfl, fun running => absurd rfl running, rfl, noInternal,
        fun number => Or.inr ⟨_, .shutdown number, rfl⟩⟩

end Pager

end Hurd.Libpager
