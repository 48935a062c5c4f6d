import Hurd.Libpager.Completing

/-!
# Unlocks and returns to their end

`EndsAs` for `data_unlock` and `data_return`.  The only `WRITEWAIT` entry of a handler that is not
interrupted is its own, and so it writes every page that it has been given.
-/

namespace Hurd.Libpager

section Unlocks

variable {results : Callbacks} {past : List Event} {shared : SharedPager Interned} {pager : Pager}
  {client : MachPort} {offset length number size : ℕ}

theorem flushEach_entry_update (page : Page) (entry : PagemapEntry) (clients : List MachPort) :
    ({ page with entry := entry } : Page).flushEach clients =
      { page.flushEach clients with entry := entry } := by
  induction clients generalizing page with
  | nil => rfl
  | cons client rest ih => exact ih (page.internalFlushRequest client)

/-- A routine that leaves the entry, whatever entry it finds -/
theorem Pager.putPage_pagemap (pager : Pager) (number other : ℕ) {page : Page}
    (leaves : page.entry = pager.pagemap other) :
    pager.putPage number other { page with entry := pager.pagemap number } =
      pager.setPage other page := by
  rw [Pager.putPage, Pager.setPage, leaves]
  dsimp only
  rw [Function.update_eq_self, Function.update_eq_self]

theorem unlockPass_related {first : ℕ} {state : SharedPager Interned × (ℕ → Bool)}
    {state' : Pager × (ℕ → Bool)} (alongside : AlongsideFlags past size state state')
    (hasOffset : number * size < offsetRange) (firstOffset : first * size < offsetRange) :
    Option.Rel (AlongsideFlags past size) (SharedPager.unlockPass client first number state)
      (Pager.unlockPass client first number state') := by
  rcases state with ⟨shared, flags⟩
  rcases state' with ⟨pager, flags'⟩
  rcases alongside with ⟨⟨mirrors, sameSize⟩, sameFlags⟩
  dsimp only at mirrors sameSize sameFlags
  subst sameSize sameFlags
  have works := Works.load mirrors number
  have isPage : (shared.load number).page number = pager.page number := works.page_self hasOffset
  rw [SharedPager.unlockPass, Pager.unlockPass]
  dsimp only
  rw [SharedPager.onTmp, isPage]
  cases (pager.page number).dataUnlockEnter client with
  | none => exact .none
  | some state =>
      rcases state with ⟨page, doUnlock, flushes⟩
      have entered := works.setPage hasOffset page
      have firstPage := entered.page firstOffset
      have flushed := entered.putPage firstOffset
        { ((pager.setPage number page).page first).flushEach flushes with
          entry := (pager.setPage number page).pagemap number }
      rw [Pager.putPage_pagemap _ _ _ (Page.flushEach_entry _ _)] at flushed
      rw [Option.map_some, Option.bind_some, Option.bind_some]
      dsimp only
      rw [SharedPager.onTmp, firstPage, flushEach_entry_update]
      exact .some ⟨⟨flushed, rfl⟩, rfl⟩

theorem unlockedPass_related (alongside : Alongside past size shared pager)
    (hasOffset : number * size < offsetRange) {doUnlock : ℕ → Bool} {calls : List Call}
    (isCalled : doUnlock number = true → .unlockPage number ∈ calls) :
    Option.Rel (Alongside past size)
      (SharedPager.unlockedPass doUnlock (Call.answers results calls) number shared)
      (pager.onPage number fun page => page.unlockExit (doUnlock number) (results number)) := by
  rw [SharedPager.unlockedPass]
  cases isUnlocking : doUnlock number with
  | false =>
      have isSame : (pager.onPage number fun page => page.unlockExit false (results number)) =
          some pager :=
        congrArg some (pager.setPage_page number)
      rw [isSame]
      exact .some alongside
  | true =>
      rw [if_pos rfl, Call.answers_unlock (isCalled isUnlocking)]
      exact alongside.plainPass hasOffset fun number page =>
        page.finalizeUnlock (results number).unlock

/-- The last loop of `data_unlock` and of `data_return` -/
theorem unlock_ends (mirrors : Mirrors past shared pager) (within : offset + length ≤ offsetRange)
    {doUnlock : ℕ → Bool} {calls : List Call}
    (inside : ∀ call ∈ calls, call.page ∈ pager.pagesOf offset length)
    (isCalled : ∀ number ∈ pager.pagesOf offset length,
      doUnlock number = true → .unlockPage number ∈ calls) :
    EndsAs results past
      (some (shared, some
        { calls := calls, resume := .unlock (pager.pagesOf offset length) doUnlock }))
      (Loop.forEach (fun number pager => pager.onPage number fun page =>
          page.unlockExit (doUnlock number) (results number))
        (pager.pagesOf offset length) (pager.emitAll (calls.map Call.emitted))) := by
  refine .goesOn rfl rfl mirrors ?_ fun locked isLocked => ?_
  · exact fun call isCall => hasOffset_of_mem within (inside call isCall)
  · apply EndsAs.of_rel
    apply Lockstep.forEach_of_mem
    · exact fun number isPage _ _ related =>
        unlockedPass_related related (hasOffset_of_mem within isPage) (isCalled number isPage)
    · exact isLocked.alongside

theorem map_filter_eq_flatMap {α β : Type} (elements : List α) (test : α → Bool)
    (function : α → β) : (elements.filter test).map function =
      elements.flatMap fun element => if test element then [function element] else [] := by
  induction elements with
  | nil => rfl
  | cons head rest ih =>
      rw [List.flatMap_cons, List.filter_cons]
      split_ifs with holds
      · rw [List.map_cons, ih]
        rfl
      · exact ih

theorem dataUnlock_ends (mirrors : Mirrors past shared pager)
    (within : offset + length ≤ offsetRange) :
    EndsAs results past (shared.dataUnlock client offset length)
      (pager.dataUnlock client offset length results) := by
  rw [SharedPager.dataUnlock, Pager.dataUnlock, mirrors.pageSize, mirrors.terminating,
    mirrors.pagesOf]
  split_ifs with misaligned terminating
  · exact .fails
  · exact .done mirrors
  dsimp only
  have entered : Option.Rel (AlongsideFlags past pager.pageSize)
      (Loop.forEach (SharedPager.unlockPass client (offset / pager.pageSize))
        (pager.pagesOf offset length) (shared, fun _ => false))
      (Loop.forEach (Pager.unlockPass client (offset / pager.pageSize))
        (pager.pagesOf offset length) (pager, fun _ => false)) := by
    apply Lockstep.forEach_of_mem
    · intro number isPage _ _ related
      have hasOffset := hasOffset_of_mem within isPage
      have isAfter : offset / pager.pageSize ≤ number := (List.mem_range'_1.mp isPage).1
      exact unlockPass_related related hasOffset
        ((Nat.mul_le_mul_right _ isAfter).trans_lt hasOffset)
    · exact ⟨mirrors.alongside, rfl⟩
  generalize Loop.forEach (SharedPager.unlockPass client (offset / pager.pageSize))
    (pager.pagesOf offset length) (shared, fun _ => false) = first at entered ⊢
  generalize Loop.forEach (Pager.unlockPass client (offset / pager.pageSize))
    (pager.pagesOf offset length) (pager, fun _ => false) = second at entered ⊢
  cases entered with
  | none => exact .fails
  | @some state state' related =>
      rcases state with ⟨entered, flags⟩
      rcases state' with ⟨entered', flags'⟩
      rcases related with ⟨⟨related, sameSize⟩, rfl⟩
      dsimp only at related sameSize
      have samePages : entered'.pagesOf offset length = pager.pagesOf offset length := by
        rw [Pager.pagesOf, sameSize, Pager.pagesOf]
      have called : Loop.forEach (fun number pager => Pager.onPage pager number fun page =>
          some (page.unlockCall (flags number))) (pager.pagesOf offset length) entered' =
            some (entered'.emitAll
              (((pager.pagesOf offset length).filter flags).map Call.unlockPage |>.map
                Call.emitted)) := by
        rw [map_filter_eq_flatMap]
        apply Pager.forEach_calls
        · intro number call isCall
          split_ifs at isCall
          · rw [List.mem_singleton.mp isCall]
            rfl
          · cases isCall
        · intro number _ page _
          unfold Page.unlockCall
          split_ifs
          · rfl
          · simp
      rw [Option.map_some, Option.bind_some, called, Option.bind_some, ← samePages]
      apply unlock_ends related within
      · intro call isCall
        rcases List.mem_map.mp isCall with ⟨number, isPage, rfl⟩
        exact (List.mem_filter.mp isPage).1
      · exact fun number isPage isUnlocking =>
          List.mem_map_of_mem (List.mem_filter.mpr ⟨isPage, isUnlocking⟩)

end Unlocks

section Writes

variable {results : Callbacks} {past : List Event} {shared : SharedPager Interned} {pager : Pager}
  {current : WritewaitEntry} {offset length number size : ℕ}

/-- The end of `service_first_WRITEWAIT_entry` -/
def Pager.popFront (pager : Pager) (current : WritewaitEntry) : Pager :=
  { pager.emit (.wakeWriteWaiters current.offset current.length) with
    writewait := pager.writewait.tail }

theorem Mirrors.popFront (mirrors : Mirrors past shared pager) (current : WritewaitEntry) :
    Mirrors past (shared.popFront current) (pager.popFront current) := by
  have emitted := mirrors.emit (.wakeWriteWaiters current.offset current.length)
  exact { emitted with writewait := congrArg List.tail mirrors.writewait }

/-- The pages of an entry that ends before the offsets wrap around -/
structure Pager.OnlyWrites (pager : Pager) (current : WritewaitEntry) : Prop where
  queued : pager.writewait = [current]
  offsetAligned : current.offset % pager.pageSize = 0
  lengthAligned : current.length % pager.pageSize = 0
  within : current.offset + current.length < offsetRange

namespace Pager.OnlyWrites

/-- No sum that is compared wraps around. -/
theorem ends_mod (only : pager.OnlyWrites current)
    (isPage : number ∈ pager.pagesOf current.offset current.length) :
    (current.offset + current.length) % offsetRange = current.offset + current.length ∧
      (number + 1) * pager.pageSize % offsetRange = (number + 1) * pager.pageSize := by
  have covered := mem_pagesOf only.offsetAligned only.lengthAligned isPage
  exact ⟨Nat.mod_eq_of_lt only.within, Nat.mod_eq_of_lt (covered.2.trans_lt only.within)⟩

theorem matching (only : pager.OnlyWrites current)
    (isPage : number ∈ pager.pagesOf current.offset current.length) :
    pager.matchingPageCountOnWritewait number = 1 := by
  rcases mem_pagesOf only.offsetAligned only.lengthAligned isPage with ⟨isBegun, isEnded⟩
  rcases only.ends_mod isPage with ⟨sameEnd, samePageEnd⟩
  have isMatched : pager.matchesPage current.offset current.length number = true := by
    rw [matchesPage, sameEnd, samePageEnd,
      Nat.mod_eq_of_lt ((Nat.le_add_right _ _).trans_lt only.within),
      Nat.mod_eq_of_lt (hasOffset_of_mem only.within.le isPage)]
    exact decide_eq_true ⟨isBegun, isEnded⟩
  simp [matchingPageCountOnWritewait, only.queued, isMatched]

theorem matching_shared (only : pager.OnlyWrites current) (mirrors : Mirrors past shared pager)
    (isPage : number ∈ pager.pagesOf current.offset current.length) :
    shared.matchingPageCountOnWritewait number = 1 := by
  have covered := mem_pagesOf only.offsetAligned only.lengthAligned isPage
  have hasOffset : pager.HasOffset number := hasOffset_of_mem only.within.le isPage
  rcases only.ends_mod isPage with ⟨sameEnd, samePageEnd⟩
  rw [SharedPager.matchingPageCountOnWritewait, mirrors.writewait, only.queued]
  have matchesPage : shared.matchesPage number current = true := by
    rw [SharedPager.matchesPage, mirrors.offsetOf hasOffset, mirrors.pageSize, sameEnd, samePageEnd]
    exact decide_eq_true covered
  simp [matchesPage]

end Pager.OnlyWrites

theorem dataFor_eq (mirrors : Mirrors past shared pager) (current : WritewaitEntry) (number : ℕ) :
    shared.dataFor current number = current.data (number - current.offset / pager.pageSize) := by
  rw [SharedPager.dataFor, mirrors.pageSize]

/-- The loops of `service_first_WRITEWAIT_entry` after the writes -/
def Pager.afterWrites (pager : Pager) (current : WritewaitEntry) (results : Callbacks) :
    Option Pager :=
  (Loop.forEach (fun number state =>
      onPageFlag state number fun page =>
        page.afterWrite (current.data (number - current.offset / pager.pageSize))
          current.kernelCopy (results number).write true)
    (pager.pagesOf current.offset current.length) (pager, fun _ => false)).map fun state =>
  (state.1.emitAll (((pager.pagesOf current.offset current.length).flatMap fun number =>
      if state.1.notifyOnEvict && state.2 number then [Call.notifyEvict number] else []).map
    Call.emitted)).popFront current

theorem Pager.serviceFirstWritewaitEntry_eq (only : pager.OnlyWrites current) :
    pager.serviceFirstWritewaitEntry results =
      (pager.emitAll (((pager.pagesOf current.offset current.length).map fun number =>
        Call.writePage number (current.data (number - current.offset / pager.pageSize))).map
          Call.emitted)).afterWrites current results := by
  have allPages : (pager.pagesOf current.offset current.length).filter
      (fun number => pager.matchingPageCountOnWritewait number = 1) =
        pager.pagesOf current.offset current.length :=
    List.filter_eq_self.mpr fun number isPage => decide_eq_true (only.matching isPage)
  have asCalls : ((pager.pagesOf current.offset current.length).map fun number =>
      Call.writePage number (current.data (number - current.offset / pager.pageSize))) =
        (pager.pagesOf current.offset current.length).flatMap fun number =>
          [Call.writePage number (current.data (number - current.offset / pager.pageSize))] :=
    List.map_eq_flatMap
  have written : Loop.forEach (fun number pager' => Pager.onPage pager' number fun page =>
        some (page.send (.writePage (current.data (number - current.offset / pager.pageSize)))))
      (pager.pagesOf current.offset current.length) pager =
        some (pager.emitAll (((pager.pagesOf current.offset current.length).map fun number =>
          Call.writePage number (current.data (number - current.offset / pager.pageSize))).map
            Call.emitted)) := by
    rw [asCalls]
    apply Pager.forEach_calls
    · intro number call isCall
      rw [List.mem_singleton.mp isCall]
      rfl
    · exact fun _ _ _ _ => rfl
  rw [Pager.serviceFirstWritewaitEntry]
  simp only [only.queued, allPages]
  rw [written, Option.bind_some, Pager.afterWrites]
  generalize isWritten : pager.emitAll _ = written'
  have sameCount : ∀ number, written'.matchingPageCountOnWritewait number =
      pager.matchingPageCountOnWritewait number := by
    rw [← isWritten]
    exact fun _ => rfl
  have sameSize : written'.pageSize = pager.pageSize := by rw [← isWritten]; rfl
  have samePages : written'.pagesOf current.offset current.length =
      pager.pagesOf current.offset current.length := by rw [← isWritten]; rfl
  rw [sameSize, samePages]
  have served : Loop.forEach (fun number state => onPageFlag state number fun page =>
        page.afterWrite (current.data (number - current.offset / pager.pageSize))
          current.kernelCopy (results number).write
          (written'.matchingPageCountOnWritewait number = 1))
      (pager.pagesOf current.offset current.length) (written', fun _ => false) =
        Loop.forEach (fun number state => onPageFlag state number fun page =>
            page.afterWrite (current.data (number - current.offset / pager.pageSize))
              current.kernelCopy (results number).write true)
          (pager.pagesOf current.offset current.length) (written', fun _ => false) := by
    refine Loop.forEach_congr (fun number isPage => ?_) _
    rw [sameCount, only.matching isPage, decide_eq_true rfl]
  rw [served, Option.map_eq_bind]
  refine congrArg (Option.bind _) (funext fun state => ?_)
  have notified : Loop.forEach (fun number pager => Pager.onPage pager number fun page =>
        some (page.notifyCall (state.2 number)))
      (pager.pagesOf current.offset current.length) state.1 =
        some (state.1.emitAll (((pager.pagesOf current.offset current.length).flatMap fun number =>
          if state.1.notifyOnEvict && state.2 number then [Call.notifyEvict number] else []).map
            Call.emitted)) := by
    apply Pager.forEach_calls
    · intro number call isCall
      split_ifs at isCall
      · rw [List.mem_singleton.mp isCall]
        rfl
      · cases isCall
    · intro number _ page isPrecious
      rw [Page.notifyCall, ← isPrecious]
      split_ifs
      · rfl
      · simp
  rw [notified]
  rfl

/-- The end of `service_first_WRITEWAIT_entry`, where there is no other entry -/
theorem popFront_ends (mirrors : Mirrors past shared pager) (queued : pager.writewait = [current]) :
    EndsAs results past
      (some (SharedPager.serviceWritewait shared.writewait.tail (shared.popFront current)))
      (some (pager.popFront current)) := by
  rw [mirrors.writewait, queued]
  exact .done (mirrors.popFront current)

theorem afterWrites_ends (mirrors : Mirrors past shared pager) (only : pager.OnlyWrites current)
    {answered : Callbacks}
    (answers : ∀ number ∈ pager.pagesOf current.offset current.length,
      (answered number).write = (results number).write) :
    EndsAs results past
      (shared.afterWrites current (pager.pagesOf current.offset current.length) answered)
      (pager.afterWrites current results) := by
  have served : Option.Rel (AlongsideFlags past pager.pageSize)
      (Loop.forEach (SharedPager.flagPass fun number page =>
          page.afterWrite (shared.dataFor current number) current.kernelCopy
            (answered number).write (shared.matchingPageCountOnWritewait number = 1))
        (pager.pagesOf current.offset current.length) (shared, fun _ => false))
      (Loop.forEach (fun number state => Pager.onPageFlag state number fun page =>
          page.afterWrite (current.data (number - current.offset / pager.pageSize))
            current.kernelCopy (results number).write true)
        (pager.pagesOf current.offset current.length) (pager, fun _ => false)) := by
    apply Lockstep.forEach_of_mem
    · intro number isPage state state' related
      have passed := related.flagPass (hasOffset_of_mem only.within.le isPage) fun number page =>
        page.afterWrite (shared.dataFor current number) current.kernelCopy
          (answered number).write (shared.matchingPageCountOnWritewait number = 1)
      rw [dataFor_eq mirrors, answers number isPage, only.matching_shared mirrors isPage,
        decide_eq_true rfl] at passed
      exact passed
    · exact ⟨mirrors.alongside, rfl⟩
  rw [SharedPager.afterWrites, Pager.afterWrites]
  generalize Loop.forEach (SharedPager.flagPass _) _ (shared, fun _ : ℕ => false) = first
    at served ⊢
  generalize isSecond : Loop.forEach _ (pager.pagesOf current.offset current.length)
    (pager, fun _ : ℕ => false) = second at served ⊢
  cases served with
  | none => exact .fails
  | @some state state' related =>
      rcases Pager.forEach_onPageFlag List.nodup_range'
        (fun _ => Page.stable_afterWrite _ _ _ _) isSecond with ⟨rest, -, -⟩
      have queued : state'.1.writewait = [current] := rest.writewait.trans only.queued
      rcases state with ⟨entered, flags⟩
      rcases state' with ⟨entered', flags'⟩
      rcases related with ⟨⟨related, sameSize⟩, rfl⟩
      dsimp only at related sameSize queued
      rw [Option.map_some, Option.map_some]
      dsimp only
      rw [related.notifyOnEvict]
      by_cases notifies : entered'.notifyOnEvict = true ∧
        (pager.pagesOf current.offset current.length).filter flags ≠ []
      · have asCalls : ((pager.pagesOf current.offset current.length).flatMap fun number =>
            if entered'.notifyOnEvict && flags number then [Call.notifyEvict number] else []) =
              ((pager.pagesOf current.offset current.length).filter flags).map
                Call.notifyEvict := by
          simp only [notifies.1, Bool.true_and]
          exact (map_filter_eq_flatMap _ _ _).symm
        rw [if_pos notifies, asCalls]
        refine .goesOn rfl rfl related ?_ fun locked isLocked => popFront_ends isLocked queued
        intro call isCall
        rcases List.mem_map.mp isCall with ⟨number, isPage, rfl⟩
        rw [Pager.HasOffset, sameSize]
        exact hasOffset_of_mem only.within.le (List.mem_filter.mp isPage).1
      · have noCalls : ((pager.pagesOf current.offset current.length).flatMap fun number =>
            if entered'.notifyOnEvict && flags number then [Call.notifyEvict number] else []) =
              [] := by
          refine List.flatMap_eq_nil_iff.mpr fun number isPage => if_neg fun isEvicted => ?_
          rw [Bool.and_eq_true] at isEvicted
          exact notifies ⟨isEvicted.1,
            List.ne_nil_of_mem (List.mem_filter.mpr ⟨isPage, isEvicted.2⟩)⟩
        rw [if_neg notifies, noCalls, List.map_nil, Pager.emitAll_nil]
        exact popFront_ends related queued

theorem Pager.serviceWritewait_eq (only : pager.OnlyWrites current) :
    Pager.serviceWritewait results pager.writewait.length pager =
      pager.serviceFirstWritewaitEntry results := by
  have isSame : Pager.serviceWritewait results 0 = some := rfl
  rw [only.queued, List.length_singleton, Pager.serviceWritewait, only.queued, isSame,
    Option.bind_fun_some]
  rfl

/-- `data_return` where its own entry is the only one in `WRITEWAIT` -/
theorem serviceWritewait_ends (mirrors : Mirrors past shared pager)
    (only : pager.OnlyWrites current) :
    EndsAs results past (some (SharedPager.serviceWritewait shared.writewait shared))
      (pager.serviceFirstWritewaitEntry results) := by
  have allPages : (shared.pagesOf current.offset current.length).filter
      (fun number => shared.matchingPageCountOnWritewait number = 1) =
        pager.pagesOf current.offset current.length := by
    rw [mirrors.pagesOf]
    exact List.filter_eq_self.mpr fun number isPage =>
      decide_eq_true (only.matching_shared mirrors isPage)
  rw [Pager.serviceFirstWritewaitEntry_eq only, mirrors.writewait, only.queued,
    SharedPager.serviceWritewait, allPages]
  have sameCalls : (fun number => Call.writePage number (shared.dataFor current number)) =
      fun number => .writePage number (current.data (number - current.offset / pager.pageSize)) :=
    funext fun number => by rw [dataFor_eq mirrors]
  rw [sameCalls]
  have still : ∀ events, (pager.emitAll events).OnlyWrites current := fun _ =>
    ⟨only.queued, only.offsetAligned, only.lengthAligned, only.within⟩
  have samePages : ∀ events, (pager.emitAll events).pagesOf current.offset current.length =
    pager.pagesOf current.offset current.length := fun _ => rfl
  by_cases isEmpty : (pager.pagesOf current.offset current.length).isEmpty = true
  · rw [if_pos isEmpty, Pager.afterWrites, samePages, List.isEmpty_iff.mp isEmpty]
    have isDone : Mirrors past (shared.popFront current)
        (((pager.emitAll []).emitAll []).popFront current) := by
      rw [Pager.emitAll_nil, Pager.emitAll_nil]
      exact mirrors.popFront current
    exact .done isDone
  · rw [if_neg isEmpty]
    refine .goesOn rfl rfl mirrors ?_ fun locked isLocked => ?_
    · intro call isCall
      rcases List.mem_map.mp isCall with ⟨number, isPage, rfl⟩
      exact hasOffset_of_mem only.within.le isPage
    · refine afterWrites_ends isLocked (still _) fun number isPage => ?_
      exact Call.answers_write (List.mem_map_of_mem isPage)

end Writes

section Returns

variable {results : Callbacks} {past : List Event} {shared : SharedPager Interned} {pager : Pager}
  {client : MachPort} {offset length : ℕ} {data : ℕ → ℕ} {dirty kernelCopy : Bool}
  {stale : ℕ → Bool}

theorem dataReturnUnlocks_ends (mirrors : Mirrors past shared pager)
    (within : offset + length ≤ offsetRange)
    (isStale : ∀ number, stale number = (results number).staleNotify)
    (flags : ℕ → Page.ReturnFlags) :
    EndsAs results past
      (some (shared, some
        { calls := (pager.pagesOf offset length).flatMap fun number =>
            (if (flags number).doUnlock then [.unlockPage number] else []) ++
              if (flags number).doNotify || stale number then [.notifyEvict number] else []
          resume := .unlock (pager.pagesOf offset length) fun number => (flags number).doUnlock }))
      (pager.dataReturnUnlocks (pager.pagesOf offset length) flags results) := by
  have isOf : ∀ number, ∀ call ∈ (if (flags number).doUnlock then [Call.unlockPage number] else []) ++
      (if (flags number).doNotify || stale number then [.notifyEvict number] else []),
        call.page = number := by
    intro number call isCall
    rcases List.mem_append.mp isCall with isCall | isCall
    all_goals
      split_ifs at isCall
      · rw [List.mem_singleton.mp isCall]
        rfl
      · cases isCall
  have called : Loop.forEach (fun number pager => Pager.onPage pager number fun page =>
        some (page.returnCall (flags number) (results number)))
      (pager.pagesOf offset length) pager =
        some (pager.emitAll (((pager.pagesOf offset length).flatMap fun number =>
          (if (flags number).doUnlock then [Call.unlockPage number] else []) ++
            if (flags number).doNotify || stale number then [.notifyEvict number] else []).map
              Call.emitted)) := by
    refine Pager.forEach_calls isOf fun number _ page _ => ?_
    rw [Page.returnCall, Page.unlockCall, isStale]
    split_ifs <;> simp [Page.send, Call.event]
  rw [Pager.dataReturnUnlocks, called, Option.bind_some]
  apply unlock_ends mirrors within
  · intro call isCall
    rcases List.mem_flatMap.mp isCall with ⟨number, isPage, isCall⟩
    rw [isOf number call isCall]
    exact isPage
  · intro number isPage isUnlocking
    refine List.mem_flatMap.mpr ⟨number, isPage, List.mem_append_left _ ?_⟩
    rw [if_pos isUnlocking]
    exact List.mem_singleton_self _

theorem dataReturn_ends (mirrors : Mirrors past shared pager) (noneQueued : pager.writewait = [])
    (within : offset + length < offsetRange)
    (isStale : ∀ number, stale number = (results number).staleNotify) :
    EndsAs results past (shared.dataReturn client offset data length dirty kernelCopy stale)
      (pager.dataReturn client offset data length dirty kernelCopy results) := by
  rw [SharedPager.dataReturn, Pager.dataReturn, mirrors.pageSize, mirrors.pagesOf]
  by_cases misaligned : length % pager.pageSize ≠ 0 ∨ offset % pager.pageSize ≠ 0
  · rw [if_pos misaligned, if_pos misaligned]
    exact .fails
  rw [if_neg misaligned, if_neg misaligned]
  dsimp only
  have entered : Option.Rel (AlongsideFlags past pager.pageSize)
      (Loop.forEach (SharedPager.flagPass fun number page =>
          page.dataReturnEnter client (data (number - offset / pager.pageSize)) dirty kernelCopy)
        (pager.pagesOf offset length) (shared, fun _ => ⟨false, false⟩))
      (Loop.forEach (fun number state => Pager.onPageFlag state number fun page =>
          page.dataReturnEnter client (data (number - offset / pager.pageSize)) dirty kernelCopy)
        (pager.pagesOf offset length) (pager, fun _ => ⟨false, false⟩)) := by
    apply Lockstep.forEach_of_mem
    · exact fun number isPage _ _ related =>
        related.flagPass (hasOffset_of_mem within.le isPage) fun number page =>
          page.dataReturnEnter client (data (number - offset / pager.pageSize)) dirty kernelCopy
    · exact ⟨mirrors.alongside, rfl⟩
  generalize Loop.forEach (SharedPager.flagPass _) _ (shared, _) = first at entered ⊢
  generalize isSecond : Loop.forEach _ (pager.pagesOf offset length)
    (pager, fun _ : ℕ => Page.ReturnFlags.mk false false) = second at entered ⊢
  cases entered with
  | none => exact .fails
  | @some state state' related =>
      rcases Pager.forEach_onPageFlag List.nodup_range'
        (fun _ => Page.stable_dataReturnEnter _ _ _ _) isSecond with ⟨rest, -, -⟩
      rcases state with ⟨shared', flags⟩
      rcases state' with ⟨entered', flags'⟩
      rcases related with ⟨⟨related, sameSize⟩, rfl⟩
      dsimp only at related sameSize rest
      have noneQueued' : entered'.writewait = [] := rest.writewait.trans noneQueued
      have samePages : entered'.pagesOf offset length = pager.pagesOf offset length := by
        rw [Pager.pagesOf, sameSize, Pager.pagesOf]
      rw [Option.bind_some, Option.bind_some]
      dsimp only
      by_cases flagged : ∃ number ∈ pager.pagesOf offset length,
        (flags number).doUnlock = true ∨ (flags number).doNotify = true
      · rw [if_pos flagged, if_pos flagged]
        cases dirty with
        | true => exact .fails
        | false =>
            rw [← samePages]
            have ends := dataReturnUnlocks_ends related within.le isStale flags
            simp only [Bool.false_eq_true, if_false, Option.bind_fun_some]
            exact ends
      · rw [if_neg flagged, if_neg flagged, Option.bind_some]
        cases dirty with
        | false => exact .done related
        | true =>
            have isEmpty : shared'.writewait.isEmpty = true := by
              rw [related.writewait, noneQueued']
              rfl
            have isEmpty' : entered'.writewait.isEmpty = true := by
              rw [noneQueued']
              rfl
            rw [not_or, not_not, not_not] at misaligned
            simp only [if_true, isEmpty, isEmpty', not_true, if_false]
            have queued : Mirrors past
                { shared' with
                  writewait := shared'.writewait ++ [⟨offset, data, length, kernelCopy⟩] }
                { entered' with
                  writewait := entered'.writewait ++ [⟨offset, data, length, kernelCopy⟩] } :=
              { related with
                writewait := congrArg (fun entries => entries ++ [_]) related.writewait }
            have only : ({ entered' with
                writewait := entered'.writewait ++ [⟨offset, data, length, kernelCopy⟩] } :
                  Pager).OnlyWrites ⟨offset, data, length, kernelCopy⟩ := by
              refine ⟨?_, ?_, ?_, within⟩
              · dsimp only
                rw [noneQueued', List.nil_append]
              · exact sameSize.symm ▸ misaligned.2
              · exact sameSize.symm ▸ misaligned.1
            rw [Pager.serviceWritewait_eq only]
            exact serviceWritewait_ends queued only

end Returns

end Hurd.Libpager
