import Hurd.Libpager.Segments

/-!
# The queue of writes

One thread at a time goes through `WRITEWAIT`, and it passes over a page where a later entry has
it.  So every page is written what was last queued for it before the queue is empty, and
`PAGINGOUT` says whether there is something to write.

All this rests on `matching_page_count_on_WRITEWAIT`, which compares the ends of pages and of
entries as 32-bit numbers: an entry that ends where the offsets end seems to end at zero, and of its
pages only the last is written.  The results are for returns of dirty data that end before that.
-/

namespace Hurd.Libpager

namespace WritewaitEntry

variable {pageSize number : ℕ} {entry : WritewaitEntry}

/-- The page is one of those of the entry. -/
def Covers (pageSize : ℕ) (entry : WritewaitEntry) (number : ℕ) : Prop :=
  entry.offset / pageSize ≤ number ∧ number < entry.offset / pageSize + entry.length / pageSize

instance : Decidable (entry.Covers pageSize number) := by
  unfold Covers
  infer_instance

/-- The entry is made of whole pages and ends before the offsets do. -/
structure Fits (pageSize : ℕ) (entry : WritewaitEntry) : Prop where
  offset : entry.offset % pageSize = 0
  length : entry.length % pageSize = 0
  small : entry.offset + entry.length < offsetRange

/-- What the entry has for a page -/
def contents? (pageSize number : ℕ) (entry : WritewaitEntry) : Option ℕ :=
  if entry.Covers pageSize number then some (entry.data (number - entry.offset / pageSize)) else none

theorem Fits.page_lt (fits : entry.Fits pageSize) (covers : entry.Covers pageSize number) :
    (number + 1) * pageSize < offsetRange := by
  have offset := Nat.div_add_mod entry.offset pageSize
  have length := Nat.div_add_mod entry.length pageSize
  rw [fits.offset, Nat.add_zero] at offset
  rw [fits.length, Nat.add_zero] at length
  have upTo : (number + 1) * pageSize ≤ entry.offset + entry.length := by
    rw [← offset, ← length, ← Nat.mul_add, Nat.mul_comm]
    exact Nat.mul_le_mul_left pageSize covers.2
  exact lt_of_le_of_lt upTo fits.small

/-- The ends of pages and of entries are compared as they should be. -/
theorem Fits.covers_iff (fits : entry.Fits pageSize) (positive : 0 < pageSize)
    (small : (number + 1) * pageSize < offsetRange) :
    entry.offset ≤ number * pageSize % offsetRange ∧
        (number + 1) * pageSize % offsetRange ≤ (entry.offset + entry.length) % offsetRange ↔
      entry.Covers pageSize number := by
  have before : number * pageSize < offsetRange := by
    rw [Nat.add_mul] at small
    omega
  rw [Nat.mod_eq_of_lt before, Nat.mod_eq_of_lt small, Nat.mod_eq_of_lt fits.small]
  have offset := Nat.div_add_mod entry.offset pageSize
  have length := Nat.div_add_mod entry.length pageSize
  rw [fits.offset, Nat.add_zero] at offset
  rw [fits.length, Nat.add_zero] at length
  unfold Covers
  constructor
  · rintro ⟨isFrom, upTo⟩
    constructor
    · exact (Nat.div_le_iff_le_mul_add_pred positive).mpr (by rw [Nat.mul_comm]; omega)
    · rw [← offset, ← length, ← Nat.mul_add, Nat.mul_comm] at upTo
      exact Nat.le_of_mul_le_mul_left upTo positive
  · rintro ⟨isFrom, upTo⟩
    constructor
    · rw [← offset, Nat.mul_comm]
      exact Nat.mul_le_mul_right pageSize isFrom
    · rw [← offset, ← length, ← Nat.mul_add, Nat.mul_comm]
      exact Nat.mul_le_mul_left pageSize upTo

end WritewaitEntry

/-- What is queued for a page by some entries in turn -/
def contentsOf (pageSize number : ℕ) (entries : List WritewaitEntry) : List ℕ :=
  entries.filterMap (WritewaitEntry.contents? pageSize number)

/-- The data that have been passed to `pager_write_page` for a page -/
def writesOf (number : ℕ) (sent : List Event) : List ℕ :=
  sent.filterMap fun
    | .page other (.writePage data) => if other = number then some data else none
    | _ => none

theorem writesOf_append (number : ℕ) (earlier later : List Event) :
    writesOf number (earlier ++ later) = writesOf number earlier ++ writesOf number later :=
  List.filterMap_append

theorem writesOf_of_quiet {number : ℕ} {events : List Event}
    (quiet : ∀ event ∈ events, event.isCallback = false) : writesOf number events = [] := by
  apply List.filterMap_eq_nil_iff.mpr
  intro event isEvent
  have isMessage := quiet event isEvent
  rcases event with ⟨other, event⟩ | _ | _ | _ | _ | _
  · cases event <;> first | rfl | cases isMessage
  all_goals rfl

/--
Of what has been queued, `settled` has been dealt with and `unsettled` has not: what has been
written is among the former, and the last of it is the last of them unless there is more to come.
-/
structure Kept (pageSize number : ℕ) (writes : List ℕ) (settled unsettled : List WritewaitEntry) :
    Prop where
  inOrder : writes.Sublist (contentsOf pageSize number settled)
  lastWins : (∀ entry ∈ unsettled, ¬entry.Covers pageSize number) →
    writes.getLast? = (contentsOf pageSize number settled).getLast?

namespace Kept

variable {pageSize number : ℕ} {writes : List ℕ} {settled unsettled : List WritewaitEntry}
  {entry : WritewaitEntry}

theorem queued (kept : Kept pageSize number writes settled unsettled) (entry : WritewaitEntry) :
    Kept pageSize number writes settled (unsettled ++ [entry]) := by
  refine ⟨kept.inOrder, ?_⟩
  intro uncovered
  apply kept.lastWins
  intro other isOther
  exact uncovered other (List.mem_append_left _ isOther)

/-- An entry is passed over on a page that a later one has. -/
theorem passed (kept : Kept pageSize number writes settled (entry :: unsettled))
    (later : entry.Covers pageSize number → ∃ other ∈ unsettled, other.Covers pageSize number) :
    Kept pageSize number writes (settled ++ [entry]) unsettled := by
  constructor
  · rw [contentsOf, List.filterMap_append]
    exact kept.inOrder.trans (List.sublist_append_left _ _)
  · intro uncovered
    have notCovered : ¬entry.Covers pageSize number := by
      intro covers
      rcases later covers with ⟨other, isOther, otherCovers⟩
      exact uncovered other isOther otherCovers
    have same : contentsOf pageSize number (settled ++ [entry]) =
        contentsOf pageSize number settled := by
      simp [contentsOf, WritewaitEntry.contents?, notCovered]
    rw [same]
    apply kept.lastWins
    intro other isOther
    rcases List.mem_cons.mp isOther with rfl | isLater
    · exact notCovered
    · exact uncovered other isLater

/-- What an entry has for a page is written. -/
theorem written (kept : Kept pageSize number writes settled (entry :: unsettled)) {data : ℕ}
    (isData : entry.contents? pageSize number = some data) :
    Kept pageSize number (writes ++ [data]) (settled ++ [entry]) unsettled := by
  have contents : contentsOf pageSize number (settled ++ [entry]) =
      contentsOf pageSize number settled ++ [data] := by
    simp [contentsOf, isData]
  constructor
  · rw [contents]
    exact kept.inOrder.append (List.Sublist.refl _)
  · intro _
    rw [contents, List.getLast?_append, List.getLast?_append]
    rfl

end Kept

namespace SharedPager

variable {pageSize : ℕ} {queued : List WritewaitEntry} {pager next : SharedPager Interned}

theorem mem_pagesOf {entry : WritewaitEntry} {number : ℕ} :
    number ∈ pager.pagesOf entry.offset entry.length ↔ entry.Covers pager.pageSize number := by
  rw [pagesOf, List.mem_range'_1]
  rfl

/-- The count is one for a page of the first entry that no later entry has. -/
theorem matchingPageCount_eq_one_iff {current : WritewaitEntry} {rest : List WritewaitEntry}
    {number : ℕ} (isList : pager.writewait = current :: rest)
    (fits : ∀ entry ∈ pager.writewait, entry.Fits pager.pageSize)
    (covers : current.Covers pager.pageSize number) :
    pager.matchingPageCountOnWritewait number = 1 ↔
      ∀ entry ∈ rest, ¬entry.Covers pager.pageSize number := by
  rw [isList] at fits
  have small := (fits current List.mem_cons_self).page_lt covers
  have isMatch : ∀ entry ∈ current :: rest,
      (pager.matchesPage number entry = true ↔ entry.Covers pager.pageSize number) := by
    intro entry isEntry
    rw [matchesPage, decide_eq_true_iff, offsetOf]
    exact (fits entry isEntry).covers_iff pager.pageSize_pos small
  have isCurrent := (isMatch current List.mem_cons_self).mpr covers
  rw [matchingPageCountOnWritewait, isList, List.countP_cons_of_pos isCurrent,
    Nat.add_eq_right, List.countP_eq_zero]
  constructor
  · intro none entry isEntry
    rw [← isMatch entry (List.mem_cons_of_mem _ isEntry)]
    exact none entry isEntry
  · intro none entry isEntry
    rw [isMatch entry (List.mem_cons_of_mem _ isEntry)]
    exact none entry isEntry

/--
Where the thread that goes through `WRITEWAIT` is, if there is one.  Before a page of the first
entry is written, the entry is still to be dealt with on that page; afterwards it is not, and
`PAGINGOUT` follows when all its pages have been updated.
-/
inductive Held (pageSize : ℕ) (queued : List WritewaitEntry) (pager : SharedPager Interned) :
    Option Thread → Prop
  | idle (isEmpty : pager.writewait = [])
      (flags : ∀ number, (pager.read number).pagingout = false)
      (kept : ∀ number, Kept pageSize number (writesOf number pager.sent) queued []) :
      Held pageSize queued pager none
  | writing {thread : Thread} {current : WritewaitEntry} {pageouts : List ℕ}
      {rest settled : List WritewaitEntry} (isResume : thread.resume = .written current pageouts)
      (isList : pager.writewait = current :: rest) (isQueued : queued = settled ++ current :: rest)
      (flags : ∀ number, (pager.read number).pagingout = true ↔
        ∃ entry ∈ current :: rest, entry.Covers pageSize number)
      (own : ∀ number ∈ pageouts, current.Covers pageSize number)
      (later : ∀ number, current.Covers pageSize number → number ∉ pageouts →
        ∃ entry ∈ rest, entry.Covers pageSize number)
      (calls : ∀ call ∈ thread.calls, ∃ number data, call = .writePage number data ∧
        current.contents? pageSize number = some data)
      (distinct : (thread.calls.map Call.page).Nodup)
      (before : ∀ number ∈ thread.calls.map Call.page,
        Kept pageSize number (writesOf number pager.sent) settled (current :: rest))
      (after : ∀ number ∉ thread.calls.map Call.page,
        Kept pageSize number (writesOf number pager.sent) (settled ++ [current]) rest) :
      Held pageSize queued pager (some thread)
  | notifying {thread : Thread} {current : WritewaitEntry} {rest settled : List WritewaitEntry}
      (isResume : thread.resume = .notified current) (isList : pager.writewait = current :: rest)
      (isQueued : queued = settled ++ current :: rest)
      (flags : ∀ number, (pager.read number).pagingout = true ↔
        ∃ entry ∈ rest, entry.Covers pageSize number)
      (calls : ∀ call ∈ thread.calls, call.isWrite = false)
      (busy : ∀ call, thread.busy = some call → call.isWrite = false)
      (kept : ∀ number,
        Kept pageSize number (writesOf number pager.sent) (settled ++ [current]) rest) :
      Held pageSize queued pager (some thread)

/-- The queue is sound, with the thread that goes through it. -/
structure Sound (pageSize : ℕ) (queued : List WritewaitEntry) (pager : SharedPager Interned)
    (owner : Option Thread) : Prop where
  isPageSize : pager.pageSize = pageSize
  fits : ∀ entry ∈ pager.writewait, entry.Fits pageSize
  held : Held pageSize queued pager owner

theorem Held.isServicing {thread : Thread} (held : Held pageSize queued pager (some thread)) :
    thread.isServicing = true := by
  cases held with
  | writing isResume => simp [Thread.isServicing, isResume]
  | notifying isResume => simp [Thread.isServicing, isResume]

theorem writesOf_popFront (pager : SharedPager Interned) (current : WritewaitEntry) (number : ℕ) :
    writesOf number (pager.popFront current).sent = writesOf number pager.sent := by
  have quiet : writesOf number [.wakeWriteWaiters current.offset current.length] = [] := rfl
  simp only [popFront, emit, writesOf_append, quiet, List.append_nil]

/-- The loop of `data_return` goes on with what is in `WRITEWAIT`. -/
theorem Sound.serviceWritewait {settled entries : List WritewaitEntry}
    (isPageSize : pager.pageSize = pageSize) (isList : pager.writewait = entries)
    (fits : ∀ entry ∈ entries, entry.Fits pageSize)
    (isQueued : queued = settled ++ entries)
    (flags : ∀ number, (pager.read number).pagingout = true ↔
      ∃ entry ∈ entries, entry.Covers pageSize number)
    (kept : ∀ number, Kept pageSize number (writesOf number pager.sent) settled entries) :
    Sound pageSize queued (SharedPager.serviceWritewait entries pager).1
      (SharedPager.serviceWritewait entries pager).2 := by
  induction entries generalizing pager settled with
  | nil =>
      refine ⟨isPageSize, ?_, .idle isList ?_ ?_⟩
      · rw [show (SharedPager.serviceWritewait [] pager).1 = pager from rfl, isList]
        nofun
      · intro number
        have flag := flags number
        simp only [List.not_mem_nil, false_and, exists_false, iff_false, Bool.not_eq_true] at flag
        exact flag
      · intro number
        rw [isQueued, List.append_nil]
        exact kept number
  | cons current rest ih =>
      subst isPageSize
      have fitsList : ∀ entry ∈ pager.writewait, entry.Fits pager.pageSize := isList ▸ fits
      rw [SharedPager.serviceWritewait]
      -- the pages of the entry that no later entry has
      have isPageout : ∀ number, number ∈ ((pager.pagesOf current.offset current.length).filter
          fun number => pager.matchingPageCountOnWritewait number = 1) ↔
            current.Covers pager.pageSize number ∧
              ∀ entry ∈ rest, ¬entry.Covers pager.pageSize number := by
        intro number
        rw [List.mem_filter, mem_pagesOf, decide_eq_true_iff]
        apply and_congr_right
        exact matchingPageCount_eq_one_iff isList fitsList
      have later : ∀ number, current.Covers pager.pageSize number →
          number ∉ ((pager.pagesOf current.offset current.length).filter
            fun number => pager.matchingPageCountOnWritewait number = 1) →
          ∃ entry ∈ rest, entry.Covers pager.pageSize number := by
        intro number covers notPageout
        by_contra none
        exact notPageout ((isPageout number).mpr
          ⟨covers, fun entry isEntry isCovered => none ⟨entry, isEntry, isCovered⟩⟩)
      split_ifs with isEmpty
      · rw [List.isEmpty_iff] at isEmpty
        have passedOver : ∀ number, current.Covers pager.pageSize number →
            ∃ entry ∈ rest, entry.Covers pager.pageSize number := by
          intro number covers
          exact later number covers (by simp [isEmpty])
        refine @ih (pager.popFront current) (settled ++ [current]) rfl
          (congrArg List.tail isList) ?_ ?_ ?_ ?_
        · exact fun entry isEntry => fits entry (List.mem_cons_of_mem _ isEntry)
        · rw [isQueued, List.append_assoc]
          rfl
        · intro number
          refine (flags number).trans ?_
          constructor
          · rintro ⟨entry, isEntry, covers⟩
            rcases List.mem_cons.mp isEntry with rfl | isEntry
            · exact passedOver number covers
            · exact ⟨entry, isEntry, covers⟩
          · rintro ⟨entry, isEntry, covers⟩
            exact ⟨entry, List.mem_cons_of_mem _ isEntry, covers⟩
        · intro number
          rw [writesOf_popFront]
          exact (kept number).passed (passedOver number)
      · have numbers : (((pager.pagesOf current.offset current.length).filter fun number =>
            pager.matchingPageCountOnWritewait number = 1).map fun number =>
              Call.writePage number (pager.dataFor current number)).map Call.page =
            (pager.pagesOf current.offset current.length).filter fun number =>
              pager.matchingPageCountOnWritewait number = 1 := by
          rw [List.map_map]
          exact List.map_id _
        refine ⟨rfl, fitsList, .writing rfl isList isQueued flags ?_ later ?_ ?_ ?_ ?_⟩
        · exact fun number isIn => ((isPageout number).mp isIn).1
        · intro call isCall
          rcases List.mem_map.mp isCall with ⟨number, isIn, rfl⟩
          refine ⟨number, _, rfl, ?_⟩
          rw [WritewaitEntry.contents?, if_pos ((isPageout number).mp isIn).1]
          rfl
        · rw [numbers]
          exact List.Nodup.filter _ List.nodup_range'
        · intro number _
          exact kept number
        · intro number notIn
          rw [numbers] at notIn
          exact (kept number).passed fun covers => later number covers notIn

/-- The first entry is done with, and the loop goes on with the others. -/
theorem Sound.popped {current : WritewaitEntry} {rest settled : List WritewaitEntry}
    (isPageSize : pager.pageSize = pageSize) (isList : pager.writewait = current :: rest)
    (fits : ∀ entry ∈ pager.writewait, entry.Fits pageSize)
    (isQueued : queued = settled ++ current :: rest)
    (flags : ∀ number, (pager.read number).pagingout = true ↔
      ∃ entry ∈ rest, entry.Covers pageSize number)
    (kept : ∀ number,
      Kept pageSize number (writesOf number pager.sent) (settled ++ [current]) rest) :
    Sound pageSize queued
      (SharedPager.serviceWritewait pager.writewait.tail (pager.popFront current)).1
      (SharedPager.serviceWritewait pager.writewait.tail (pager.popFront current)).2 := by
  have isTail : pager.writewait.tail = rest := congrArg List.tail isList
  rw [isTail]
  refine @Sound.serviceWritewait _ _ (pager.popFront current) (settled ++ [current]) rest
    isPageSize isTail ?_ ?_ flags ?_
  · intro entry isEntry
    exact fits entry (isList ▸ List.mem_cons_of_mem _ isEntry)
  · rw [isQueued, List.append_assoc]
    rfl
  · intro number
    rw [writesOf_popFront]
    exact kept number

/-- The thread takes the lock again after its writes. -/
theorem Sound.afterWrites {thread : Thread} {current : WritewaitEntry} {pageouts : List ℕ}
    {outcome : SharedPager Interned × Option Thread}
    (sound : Sound pageSize queued pager (some thread))
    (isResume : thread.resume = .written current pageouts) (made : thread.calls = [])
    (done : pager.afterWrites current pageouts thread.results = some outcome) :
    Sound pageSize queued outcome.1 outcome.2 := by
  rcases sound with ⟨rfl, fits, held⟩
  cases held with
  | notifying isOther => cases isResume.symm.trans isOther
  | @writing _ other otherPageouts rest settled isOther isList isQueued flags own later calls distinct
      before after =>
      cases isResume.symm.trans isOther
      rcases Option.map_eq_some_iff.mp done with ⟨⟨updated, doNotify⟩, finished, isOutcome⟩
      have effects := @forEach_flagPass _ _ (fun number flag =>
          flag && !decide (pager.matchingPageCountOnWritewait number = 1))
        Page.afterWrite_pagingout (by simp) _ _ _ finished
      rcases effects with ⟨framed, pagingout⟩
      dsimp only at framed pagingout isOutcome
      have kept : ∀ number, Kept pager.pageSize number (writesOf number updated.sent)
          (settled ++ [current]) rest := by
        intro number
        rcases framed.messaged with ⟨events, isSent, quiet⟩
        rw [isSent, writesOf_append, writesOf_of_quiet quiet, List.append_nil]
        exact after number (by simp [made])
      have updatedFlags : ∀ number, (updated.read number).pagingout = true ↔
          ∃ entry ∈ rest, entry.Covers pager.pageSize number := by
        intro number
        rw [pagingout]
        split_ifs with isPageout
        · have covers := own number isPageout
          have isSet := (flags number).mpr ⟨current, List.mem_cons_self, covers⟩
          rw [isSet, Bool.true_and, Bool.not_eq_true', decide_eq_false_iff_not,
            matchingPageCount_eq_one_iff isList fits covers]
          simp
        · rw [flags]
          constructor
          · rintro ⟨entry, isEntry, covers⟩
            rcases List.mem_cons.mp isEntry with rfl | isEntry
            · exact later number covers isPageout
            · exact ⟨entry, isEntry, covers⟩
          · rintro ⟨entry, isEntry, covers⟩
            exact ⟨entry, List.mem_cons_of_mem _ isEntry, covers⟩
      have updatedList : updated.writewait = current :: rest := framed.writewait.trans isList
      split_ifs at isOutcome
      · rcases isOutcome with rfl
        refine ⟨framed.pageSize, ?_, .notifying rfl updatedList isQueued updatedFlags ?_ nofun kept⟩
        · rw [framed.writewait]
          exact fits
        · intro call isCall
          rcases List.mem_map.mp isCall with ⟨number, -, rfl⟩
          rfl
      · rcases isOutcome with rfl
        apply Sound.popped framed.pageSize updatedList _ isQueued updatedFlags kept
        rw [framed.writewait]
        exact fits

/-- The thread takes the lock again after its notifications. -/
theorem Sound.notified {thread : Thread} {current : WritewaitEntry}
    (sound : Sound pageSize queued pager (some thread))
    (isResume : thread.resume = .notified current) :
    Sound pageSize queued
      (SharedPager.serviceWritewait pager.writewait.tail (pager.popFront current)).1
      (SharedPager.serviceWritewait pager.writewait.tail (pager.popFront current)).2 := by
  rcases sound with ⟨rfl, fits, held⟩
  cases held with
  | writing isOther => cases isResume.symm.trans isOther
  | @notifying _ other rest settled isOther isList isQueued flags calls busy kept =>
      cases isResume.symm.trans isOther
      exact Sound.popped rfl isList fits isQueued flags kept

theorem Framed.writesOf (framed : Framed pager next) (number : ℕ) :
    writesOf number next.sent = Libpager.writesOf number pager.sent := by
  rcases framed.messaged with ⟨events, isSent, quiet⟩
  rw [isSent, writesOf_append, writesOf_of_quiet quiet, List.append_nil]

/-- Nothing that the writes go by has changed. -/
theorem Sound.unchanged {owner : Option Thread} (sound : Sound pageSize queued pager owner)
    (samePageSize : next.pageSize = pager.pageSize) (sameList : next.writewait = pager.writewait)
    (sameFlags : ∀ number, (next.read number).pagingout = (pager.read number).pagingout)
    (sameWrites : ∀ number, writesOf number next.sent = Libpager.writesOf number pager.sent) :
    Sound pageSize queued next owner := by
  refine ⟨samePageSize.trans sound.isPageSize, ?_, ?_⟩
  · rw [sameList]
    exact sound.fits
  · cases sound.held with
    | idle isEmpty flags kept =>
        refine .idle (sameList.trans isEmpty) ?_ ?_
        · intro number
          rw [sameFlags]
          exact flags number
        · intro number
          rw [sameWrites]
          exact kept number
    | writing isResume isList isQueued flags own later calls distinct before after =>
        refine .writing isResume (sameList.trans isList) isQueued ?_ own later calls distinct ?_ ?_
        · intro number
          rw [sameFlags]
          exact flags number
        · intro number isIn
          rw [sameWrites]
          exact before number isIn
        · intro number notIn
          rw [sameWrites]
          exact after number notIn
    | notifying isResume isList isQueued flags calls busy kept =>
        refine .notifying isResume (sameList.trans isList) isQueued ?_ calls busy ?_
        · intro number
          rw [sameFlags]
          exact flags number
        · intro number
          rw [sameWrites]
          exact kept number

/-- Another thread has had the lock. -/
theorem Sound.calm {owner : Option Thread} (sound : Sound pageSize queued pager owner)
    (calm : Calm pager next) : Sound pageSize queued next owner :=
  sound.unchanged calm.pageSize calm.writewait calm.pagingout calm.writesOf

theorem writesOf_call (pager : SharedPager Interned) {call : Call} (notWrite : call.isWrite = false)
    (number : ℕ) :
    writesOf number (pager.emit (pager.pageEvent call.page call.event)).sent =
      Libpager.writesOf number pager.sent := by
  have quiet : Libpager.writesOf number [pager.pageEvent call.page call.event] = [] := by
    cases call <;> first | rfl | cases notWrite
  rw [emit, writesOf_append, quiet, List.append_nil]

/-- Another thread makes a callback that is no write. -/
theorem Sound.other {owner : Option Thread} {call : Call}
    (sound : Sound pageSize queued pager owner) (notWrite : call.isWrite = false) :
    Sound pageSize queued (pager.emit (pager.pageEvent call.page call.event)) owner :=
  sound.unchanged rfl rfl (fun _ => rfl) (writesOf_call pager notWrite)

/-- An entry is put on `WRITEWAIT` behind those that a thread is going through. -/
theorem Sound.enqueued {owner : Option Thread} {entry : WritewaitEntry}
    {marked : SharedPager Interned} (sound : Sound pageSize queued pager owner)
    (fits : entry.Fits pageSize) (isBusy : pager.writewait ≠ []) (framed : Framed pager marked)
    (flags : ∀ number, (marked.read number).pagingout =
      ((pager.read number).pagingout || decide (entry.Covers pageSize number))) :
    Sound pageSize (queued ++ [entry])
      { marked with writewait := pager.writewait ++ [entry] } owner := by
  have read : ∀ number, (({ marked with writewait := pager.writewait ++ [entry] } :
      SharedPager Interned).read number).pagingout = true ↔
        (pager.read number).pagingout = true ∨ entry.Covers pageSize number := by
    intro number
    have flag := flags number
    rw [Bool.eq_iff_iff, Bool.or_eq_true, decide_eq_true_iff] at flag
    exact flag
  refine ⟨framed.pageSize.trans sound.isPageSize, ?_, ?_⟩
  · intro other isOther
    rcases List.mem_append.mp isOther with isOld | isNew
    · exact sound.fits other isOld
    · rcases List.mem_singleton.mp isNew with rfl
      exact fits
  · cases sound.held with
    | idle isEmpty => exact absurd isEmpty isBusy
    | @writing _ current _ rest settled isResume isList isQueued isFlag own later calls distinct
        before after =>
        have moreList : pager.writewait ++ [entry] = current :: (rest ++ [entry]) := by
          rw [isList]
          rfl
        have moreQueued : queued ++ [entry] = settled ++ current :: (rest ++ [entry]) := by
          simp [isQueued]
        refine .writing isResume moreList moreQueued ?_ own ?_ calls distinct ?_ ?_
        · intro number
          rw [read, isFlag, ← List.cons_append]
          simp only [List.mem_append, List.mem_singleton, or_and_right, exists_or, exists_eq_left]
        · intro number covers notIn
          rcases later number covers notIn with ⟨other, isOther, isCovered⟩
          exact ⟨other, List.mem_append_left _ isOther, isCovered⟩
        · intro number isIn
          rw [framed.writesOf]
          exact (before number isIn).queued entry
        · intro number notIn
          rw [framed.writesOf]
          exact (after number notIn).queued entry
    | @notifying _ current rest settled isResume isList isQueued isFlag calls busy kept =>
        have moreList : pager.writewait ++ [entry] = current :: (rest ++ [entry]) := by
          rw [isList]
          rfl
        have moreQueued : queued ++ [entry] = settled ++ current :: (rest ++ [entry]) := by
          simp [isQueued]
        refine .notifying isResume moreList moreQueued ?_ calls busy ?_
        · intro number
          rw [read, isFlag]
          simp only [List.mem_append, List.mem_singleton, or_and_right, exists_or, exists_eq_left]
        · intro number
          rw [framed.writesOf]
          exact (kept number).queued entry

/-- An entry is put on an empty `WRITEWAIT`, and the thread goes through it. -/
theorem Sound.begun {entry : WritewaitEntry} {marked : SharedPager Interned}
    (sound : Sound pageSize queued pager none) (fits : entry.Fits pageSize)
    (framed : Framed pager marked)
    (flags : ∀ number, (marked.read number).pagingout =
      ((pager.read number).pagingout || decide (entry.Covers pageSize number))) :
    Sound pageSize (queued ++ [entry])
      (SharedPager.serviceWritewait [entry] { marked with writewait := [entry] }).1
      (SharedPager.serviceWritewait [entry] { marked with writewait := [entry] }).2 := by
  cases sound.held with
  | idle isEmpty unset kept =>
      refine @Sound.serviceWritewait _ _ { marked with writewait := [entry] } queued [entry]
        (framed.pageSize.trans sound.isPageSize) rfl ?_ rfl ?_ ?_
      · intro other isOther
        rcases List.mem_singleton.mp isOther with rfl
        exact fits
      · intro number
        have flag := flags number
        rw [unset, Bool.false_or, Bool.eq_iff_iff, decide_eq_true_iff] at flag
        refine flag.trans ?_
        simp
      · intro number
        rw [framed.writesOf]
        exact (kept number).queued entry

/-- The callback of a write names the page that is written. -/
theorem writesOf_write (pager : SharedPager Interned) {number : ℕ} (data : ℕ)
    (named : pager.offsetOf number / pager.pageSize = number) (other : ℕ) :
    writesOf other (pager.emit (pager.pageEvent number (.writePage data))).sent =
      Libpager.writesOf other pager.sent ++ if number = other then [data] else [] := by
  rw [emit, writesOf_append, pageEvent, named]
  congr 1
  simp only [Libpager.writesOf, List.filterMap_cons, List.filterMap_nil]
  split_ifs <;> rfl

/-- The offset of a page that is to be written does not wrap around. -/
theorem Sound.named {thread : Thread} {number data : ℕ}
    (sound : Sound pageSize queued pager (some thread))
    (isCall : .writePage number data ∈ thread.calls) :
    pager.offsetOf number / pager.pageSize = number := by
  rcases sound with ⟨rfl, fits, held⟩
  cases held with
  | @writing _ current _ _ _ _ isList _ _ _ _ calls =>
      rcases calls _ isCall with ⟨_, _, ⟨⟩, isData⟩
      have covers : current.Covers pager.pageSize number := by
        by_contra uncovered
        simp [WritewaitEntry.contents?, uncovered] at isData
      have small := (fits current (isList ▸ List.mem_cons_self)).page_lt covers
      rw [Nat.add_mul] at small
      rw [offsetOf, Nat.mod_eq_of_lt (by omega), Nat.mul_div_cancel _ pager.pageSize_pos]
  | notifying _ _ _ _ calls => cases calls _ isCall

/-- The thread makes its next callback. -/
theorem Sound.called {thread : Thread} {call : Call} {rest : List Call}
    (sound : Sound pageSize queued pager (some thread)) (isNext : thread.calls = call :: rest) :
    Sound pageSize queued (pager.emit (pager.pageEvent call.page call.event))
      (some { thread with calls := rest, busy := some call }) := by
  have isSound := sound
  rcases sound with ⟨rfl, fits, held⟩
  refine ⟨rfl, fits, ?_⟩
  cases held with
  | writing isResume isList isQueued flags own later calls distinct before after =>
      rcases calls call (isNext ▸ List.mem_cons_self) with ⟨number, data, rfl, isData⟩
      have writes := writesOf_write pager data
        (isSound.named (isNext ▸ List.mem_cons_self : .writePage number data ∈ thread.calls))
      rw [isNext, List.map_cons, List.nodup_cons] at distinct
      rw [isNext] at before after
      refine .writing isResume isList isQueued flags own later ?_ distinct.2 ?_ ?_
      · intro other isOther
        exact calls other (isNext ▸ List.mem_cons_of_mem _ isOther)
      · intro other isOther
        have different : number ≠ other := fun isSame => distinct.1 (isSame ▸ isOther)
        rw [Call.page, Call.event, writes, if_neg different, List.append_nil]
        exact before other (List.mem_cons_of_mem _ isOther)
      · intro other notIn
        rw [Call.page, Call.event, writes]
        split_ifs with isSame
        · subst isSame
          exact (before number List.mem_cons_self).written isData
        · rw [List.append_nil]
          apply after
          rw [List.map_cons, List.mem_cons, not_or]
          exact ⟨Ne.symm isSame, notIn⟩
  | notifying isResume isList isQueued flags calls busy kept =>
      have notWrite := calls call (isNext ▸ List.mem_cons_self)
      refine .notifying isResume isList isQueued flags ?_ ?_ ?_
      · intro other isOther
        exact calls other (isNext ▸ List.mem_cons_of_mem _ isOther)
      · rintro _ ⟨⟩
        exact notWrite
      · intro number
        rw [writesOf_call pager notWrite]
        exact kept number

theorem Sound.finished {thread : Thread} (sound : Sound pageSize queued pager (some thread))
    (results : Callbacks) :
    Sound pageSize queued pager (some { thread with busy := none, results := results }) := by
  refine ⟨sound.isPageSize, sound.fits, ?_⟩
  cases sound.held with
  | writing isResume isList isQueued flags own later calls distinct before after =>
      exact .writing isResume isList isQueued flags own later calls distinct before after
  | notifying isResume isList isQueued flags calls _ kept =>
      exact .notifying isResume isList isQueued flags calls nofun kept

theorem Held.sublist {owner : Option Thread} (held : Held pageSize queued pager owner)
    (number : ℕ) : (writesOf number pager.sent).Sublist (contentsOf pageSize number queued) := by
  have settled : ∀ earlier later : List WritewaitEntry,
      (contentsOf pageSize number earlier).Sublist (contentsOf pageSize number (earlier ++ later)) := by
    intro earlier later
    rw [contentsOf, contentsOf, List.filterMap_append]
    exact List.sublist_append_left _ _
  cases held with
  | idle _ _ kept => exact (kept number).inOrder
  | @writing thread current _ rest earlier _ _ isQueued _ _ _ _ _ before after =>
      by_cases isIn : number ∈ thread.calls.map Call.page
      · rw [isQueued]
        exact (before number isIn).inOrder.trans (settled _ _)
      · rw [isQueued, List.append_cons]
        exact (after number isIn).inOrder.trans (settled _ _)
  | notifying _ _ isQueued _ _ _ kept =>
      rw [isQueued, List.append_cons]
      exact (kept number).inOrder.trans (settled _ _)

theorem Held.getLast? {owner : Option Thread} (held : Held pageSize queued pager owner)
    (isEmpty : pager.writewait = []) (number : ℕ) :
    (writesOf number pager.sent).getLast? = (contentsOf pageSize number queued).getLast? := by
  cases held with
  | idle _ _ kept => exact (kept number).lastWins nofun
  | writing _ isList => cases isEmpty.symm.trans isList
  | notifying _ isList => cases isEmpty.symm.trans isList

end SharedPager

end Hurd.Libpager
