import Hurd.Libpager.Alone

/-!
# Handlers to their end

`EndsAs` for each handler: cut where it releases the pager lock, and not interrupted, it ends as
`Pager.handle` says.
-/

namespace Hurd.Libpager

/--
What becomes of a handler that nobody interrupts, where `results` is what its callbacks return.
The second argument is where it has released the pager lock, or ended, and the third one its outcome.
-/
inductive EndsAs (results : Callbacks) (past : List Event) :
    Option (SharedPager Interned × Option Thread) → Option Pager → Prop
  | fails : EndsAs results past none none
  | done {shared : SharedPager Interned} {pager : Pager} (mirrors : Mirrors past shared pager) :
      EndsAs results past (some (shared, none)) (some pager)
  /-- The callbacks are made, and then the thread takes the lock again. -/
  | goesOn {shared : SharedPager Interned} {thread : Thread} {pager : Pager}
      {outcome : Option Pager} (idle : thread.busy = none)
      (unanswered : thread.results = fun _ => {}) (mirrors : Mirrors past shared pager)
      (hasOffsets : ∀ call ∈ thread.calls, pager.HasOffset call.page)
      (next : ∀ locked, Mirrors past locked (pager.emitAll (thread.calls.map Call.emitted)) →
        EndsAs results past
          (locked.reenter (Call.answers results thread.calls) thread.resume) outcome) :
      EndsAs results past (some (shared, some thread)) outcome

section Handlers

variable {results : Callbacks} {past : List Event} {shared : SharedPager Interned} {pager : Pager}
  {client : MachPort} {offset length number size : ℕ}

theorem EndsAs.of_rel {first : Option (SharedPager Interned)} {second : Option Pager}
    (related : Option.Rel (Alongside past size) first second) :
    EndsAs results past (first.map fun pager => (pager, none)) second := by
  cases related with
  | none => exact .fails
  | some related => exact .done related.mirrors

theorem Pager.end_le_of_mem (isPage : number ∈ pager.pagesOf offset length) :
    (number + 1) * pager.pageSize ≤ offset + length := by
  rw [pagesOf, List.mem_range'_1] at isPage
  refine (Nat.mul_le_mul_right _ isPage.2).trans ?_
  rw [Nat.add_mul]
  exact Nat.add_le_add (Nat.div_mul_le_self _ _) (Nat.div_mul_le_self _ _)

theorem hasOffset_of_mem (within : offset + length ≤ offsetRange)
    (isPage : number ∈ pager.pagesOf offset length) : number * pager.pageSize < offsetRange := by
  have isEnd := Pager.end_le_of_mem isPage
  have isPos := pager.pageSize_pos
  rw [Nat.add_mul, Nat.one_mul] at isEnd
  omega

theorem lockCompletedPass_related {state : SharedPager Interned × (ℕ → Page.Operation)}
    {state' : Pager × (ℕ → Page.Operation)} (alongside : AlongsideFlags past size state state')
    (hasOffset : number * size < offsetRange) :
    Option.Rel (AlongsideFlags past size) (SharedPager.lockCompletedPass client number state)
      (Pager.onPageFlag state' number fun page => page.internalLockCompletedEnter client) := by
  have touched := alongside.mirrors.touch number
  have isEntry : (state.1.touch number).read number = (state'.1.page number).entry :=
    touched.pagemap number
  rw [SharedPager.lockCompletedPass, isEntry]
  by_cases granted : (state'.1.page number).entry.writeAccessGranted = true
  · rw [if_pos granted, Pager.onPageFlag, Page.internalLockCompletedEnter, if_pos granted]
    exact .none
  · rw [if_neg granted]
    by_cases isListed : client ∈ (state'.1.page number).entry.accesslist ∧
      (state'.1.page number).entry.waitlist ≠ []
    · rw [if_pos isListed]
      have again : AlongsideFlags past size (state.1.touch number, state.2) state' :=
        ⟨⟨touched, alongside.pageSize⟩, alongside.flags⟩
      exact again.flagPass hasOffset fun _ page => page.internalLockCompletedEnter client
    · rw [if_neg isListed, Pager.onPageFlag, Page.internalLockCompletedEnter, if_neg granted,
        if_neg isListed]
      have isSame : state'.1.setPage number (state'.1.page number) = state'.1 :=
        state'.1.setPage_page number
      refine .some ⟨⟨?_, alongside.pageSize⟩, ?_⟩
      · change Mirrors past _ (state'.1.setPage number (state'.1.page number))
        rw [isSame]
        exact touched
      · exact congrArg (fun flags => Function.update flags number Page.Operation.none)
          alongside.flags

theorem operationPass_related (alongside : Alongside past size shared pager)
    (hasOffset : number * size < offsetRange) (operation : ℕ → Page.Operation) {calls : List Call}
    (isCalled : ∀ call ∈ SharedPager.operationCalls operation number, call ∈ calls) :
    Option.Rel (Alongside past size)
      (SharedPager.operationPass operation (Call.answers results calls) number shared)
      (pager.onPage number fun page =>
        page.internalLockCompletedExit (results number) (operation number)) := by
  rw [SharedPager.operationPass]
  cases isOperation : operation number with
  | none =>
      have isSame : (pager.onPage number fun page =>
          page.internalLockCompletedExit (results number) .none) = some pager :=
        congrArg some (pager.setPage_page number)
      rw [isSame]
      exact .some alongside
  | pagein =>
      have isCall : .readPage number ∈ calls := by
        apply isCalled
        simp [SharedPager.operationCalls, isOperation]
      rw [Call.answers_read isCall]
      exact alongside.plainPass hasOffset fun _ page => page.finishPagein (results number).read
  | unlock =>
      have isCall : .unlockPage number ∈ calls := by
        apply isCalled
        simp [SharedPager.operationCalls, isOperation]
      rw [Call.answers_unlock isCall]
      exact alongside.plainPass hasOffset fun _ page =>
        page.finalizeUnlock (results number).unlock

/-- A loop that makes callbacks -/
theorem Pager.forEach_calls {pages : List ℕ} {part : ℕ → Page → Page} {calls : ℕ → List Call}
    (isOf : ∀ number, ∀ call ∈ calls number, call.page = number)
    (sends : ∀ number ∈ pages, ∀ page : Page, page.precious = pager.notifyOnEvict →
      part number page = { page with sent := page.sent ++ (calls number).map Call.event }) :
    Loop.forEach (fun number pager => pager.onPage number fun page => some (part number page))
      pages pager = some (pager.emitAll ((pages.flatMap calls).map Call.emitted)) := by
  have isSame : (pages.flatMap fun number => ((calls number).map Call.event).map (.page number)) =
      (pages.flatMap calls).map Call.emitted := by
    rw [List.map_flatMap]
    refine List.flatMap_congr fun number _ => ?_
    rw [List.map_map]
    refine List.map_congr_left fun call isCall => ?_
    rw [Call.emitted, isOf number call isCall]
    rfl
  rw [← isSame]
  exact Pager.forEach_send fun number isPage page isPrecious =>
    congrArg some (sends number isPage page isPrecious)

theorem operationCalls_page {operation : ℕ → Page.Operation} (number : ℕ) {call : Call}
    (isCall : call ∈ SharedPager.operationCalls operation number) : call.page = number := by
  unfold SharedPager.operationCalls at isCall
  cases isOperation : operation number with
  | none => simp [isOperation] at isCall
  | pagein =>
      rw [isOperation] at isCall
      rw [List.mem_singleton.mp isCall]
      rfl
  | unlock =>
      rw [isOperation] at isCall
      rw [List.mem_singleton.mp isCall]
      rfl

/-- `internal_lock_completed` where the pager is not terminating -/
theorem Pager.internalLockCompleted_eq
    (aligned : ¬(length % pager.pageSize ≠ 0 ∨ offset % pager.pageSize ≠ 0))
    (running : ¬pager.terminating = true) :
    pager.internalLockCompleted client offset length results =
      (Loop.forEach (fun number state => Pager.onPageFlag state number fun page =>
          page.internalLockCompletedEnter client)
        (pager.pagesOf offset length) (pager, fun _ => .none)).bind fun state =>
      Loop.forEach (fun number pager => pager.onPage number fun page =>
          page.internalLockCompletedExit (results number) (state.2 number))
        (pager.pagesOf offset length) (state.1.emitAll
          (((pager.pagesOf offset length).flatMap
            (SharedPager.operationCalls state.2)).map Call.emitted)) := by
  rw [Pager.internalLockCompleted, if_neg aligned, if_neg running]
  refine congrArg (Option.bind _) (funext fun state => ?_)
  have called : Loop.forEach (fun number pager => Pager.onPage pager number fun page =>
        some (page.internalLockCompletedCall (state.2 number)))
      (pager.pagesOf offset length) state.1 =
        some (state.1.emitAll (((pager.pagesOf offset length).flatMap
          (SharedPager.operationCalls state.2)).map Call.emitted)) := by
    refine Pager.forEach_calls (fun number _ => operationCalls_page number) ?_
    intro number _ page _
    unfold SharedPager.operationCalls
    cases state.2 number with
    | none => simp [Page.internalLockCompletedCall]
    | pagein => rfl
    | unlock => rfl
  rw [called, Option.bind_some]

/-- What comes after a routine that has not released the pager lock -/
def unlessReleased
    (next : SharedPager Interned → Option (SharedPager Interned × Option Thread)) :
    SharedPager Interned × Option Thread → Option (SharedPager Interned × Option Thread)
  | (shared, some thread) => some (shared, some thread)
  | (shared, none) => next shared

theorem internalLockCompleted_ends (mirrors : Mirrors past shared pager)
    (within : offset + length ≤ offsetRange) {drop : Option (MachPort × Option LockKey)}
    {next : SharedPager Interned → Option (SharedPager Interned × Option Thread)}
    {after : Pager → Option Pager}
    (resumes : ∀ {shared' pager'}, Mirrors past shared' pager' →
      pager.internalLockCompleted client offset length results = some pager' →
        shared'.resumeDrop drop = next shared')
    (ends : ∀ {shared' pager'}, Mirrors past shared' pager' →
      pager.internalLockCompleted client offset length results = some pager' →
        EndsAs results past (next shared') (after pager')) :
    EndsAs results past
      ((shared.internalLockCompleted client offset length drop).bind (unlessReleased next))
      ((pager.internalLockCompleted client offset length results).bind after) := by
  by_cases misaligned : length % pager.pageSize ≠ 0 ∨ offset % pager.pageSize ≠ 0
  · have fails : shared.internalLockCompleted client offset length drop = none := by
      rw [SharedPager.internalLockCompleted, mirrors.pageSize, if_pos misaligned]
    rw [fails, Pager.internalLockCompleted, if_pos misaligned]
    exact .fails
  by_cases terminating : pager.terminating = true
  · have stays : shared.internalLockCompleted client offset length drop = some (shared, none) := by
      rw [SharedPager.internalLockCompleted, mirrors.pageSize, if_neg misaligned,
        mirrors.terminating, if_pos terminating]
    have isDone : pager.internalLockCompleted client offset length results = some pager := by
      rw [Pager.internalLockCompleted, if_neg misaligned, if_pos terminating]
    rw [stays, isDone]
    exact ends mirrors isDone
  have entered : Option.Rel (AlongsideFlags past pager.pageSize)
      (Loop.forEach (SharedPager.lockCompletedPass client) (pager.pagesOf offset length)
        (shared, fun _ => .none))
      (Loop.forEach (fun number state => Pager.onPageFlag state number fun page =>
          page.internalLockCompletedEnter client)
        (pager.pagesOf offset length) (pager, fun _ => .none)) := by
    apply Lockstep.forEach_of_mem
    · exact fun number isPage _ _ related =>
        lockCompletedPass_related related (hasOffset_of_mem within isPage)
    · exact ⟨mirrors.alongside, rfl⟩
  rw [Pager.internalLockCompleted_eq misaligned terminating] at resumes ends ⊢
  rw [SharedPager.internalLockCompleted, mirrors.pageSize, if_neg misaligned, mirrors.terminating,
    if_neg terminating, mirrors.pagesOf]
  dsimp only
  generalize Loop.forEach (SharedPager.lockCompletedPass client) (pager.pagesOf offset length)
    (shared, fun _ => .none) = first at entered ⊢
  generalize Loop.forEach (fun number state => Pager.onPageFlag state number fun page =>
    page.internalLockCompletedEnter client) (pager.pagesOf offset length) (pager, fun _ => .none) =
      second at entered resumes ends ⊢
  cases entered with
  | none => exact .fails
  | @some state state' related =>
      rcases state with ⟨entered, operation⟩
      rcases state' with ⟨entered', operation'⟩
      rcases related with ⟨⟨related, sameSize⟩, rfl⟩
      rw [Option.bind_some] at resumes ends ⊢
      refine .goesOn rfl rfl related ?_ ?_
      · intro call isCall
        rcases List.mem_flatMap.mp isCall with ⟨number, isPage, isCall⟩
        rw [operationCalls_page number isCall, Pager.HasOffset, sameSize]
        exact hasOffset_of_mem within isPage
      · intro locked isLocked
        have exited : Option.Rel (Alongside past pager.pageSize)
            (Loop.forEach (SharedPager.operationPass operation
              (Call.answers results ((pager.pagesOf offset length).flatMap
                (SharedPager.operationCalls operation)))) (pager.pagesOf offset length) locked)
            (Loop.forEach (fun number pager => Pager.onPage pager number fun page =>
                page.internalLockCompletedExit (results number) (operation number))
              (pager.pagesOf offset length) (entered'.emitAll
                (((pager.pagesOf offset length).flatMap
                  (SharedPager.operationCalls operation)).map Call.emitted))) := by
          apply Lockstep.forEach_of_mem
          · intro number isPage _ _ related
            exact operationPass_related related (hasOffset_of_mem within isPage) operation
              fun call isCall => List.mem_flatMap.mpr ⟨number, isPage, isCall⟩
          · exact ⟨isLocked, sameSize⟩
        rw [SharedPager.reenter]
        dsimp only at resumes ends ⊢
        generalize Loop.forEach (SharedPager.operationPass operation _) _ locked = third at exited ⊢
        generalize Loop.forEach _ (pager.pagesOf offset length) (entered'.emitAll _) = fourth
          at exited resumes ends ⊢
        cases exited with
        | none => exact .fails
        | some related =>
            rw [Option.bind_some, resumes related.mirrors rfl]
            exact ends related.mirrors rfl

theorem internalLockCompleted_ends_self (mirrors : Mirrors past shared pager)
    (within : offset + length ≤ offsetRange) :
    EndsAs results past (shared.internalLockCompleted client offset length none)
      (pager.internalLockCompleted client offset length results) := by
  let stays : SharedPager Interned → Option (SharedPager Interned × Option Thread) :=
    fun shared => some (shared, none)
  have isSame : (shared.internalLockCompleted client offset length none).bind
      (unlessReleased stays) = shared.internalLockCompleted client offset length none := by
    rcases shared.internalLockCompleted client offset length none with _ | ⟨_, _ | _⟩ <;> rfl
  have ends : EndsAs results past
      ((shared.internalLockCompleted client offset length none).bind (unlessReleased stays))
      ((pager.internalLockCompleted client offset length results).bind some) :=
    internalLockCompleted_ends mirrors within (fun _ _ => rfl) fun mirrors _ => .done mirrors
  rw [isSame, Option.bind_fun_some] at ends
  exact ends

theorem stable_internalLockCompleted (client : MachPort) (returned : PageCallbacks) :
    Page.Stable fun page => page.internalLockCompleted client returned where
  after page earlier := by
    unfold Page.internalLockCompleted
    rw [Page.after_terminating]
    split_ifs with terminating
    · rfl
    · rw [(Page.stable_internalLockCompletedEnter client).after]
      cases page.internalLockCompletedEnter client with
      | none => rfl
      | some entered =>
          have called : (entered.1.after earlier).internalLockCompletedCall entered.2 =
              (entered.1.internalLockCompletedCall entered.2).after earlier :=
            Option.some_inj.mp
              ((Page.stable_internalLockCompletedCall entered.2).after entered.1 earlier)
          have exited := (Page.stable_internalLockCompletedExit returned entered.2).after
            (entered.1.internalLockCompletedCall entered.2) earlier
          rw [← called] at exited
          exact exited
  constants := Page.internalLockCompleted_constants

/-- `internal_lock_completed` for one page -/
theorem Pager.internalLockCompleted_page (pager : Pager) (client : MachPort) (number : ℕ)
    (results : Callbacks) :
    pager.internalLockCompleted client (number * pager.pageSize) pager.pageSize results =
      pager.onPage number fun page => page.internalLockCompleted client (results number) := by
  have aligned : ¬(pager.pageSize % pager.pageSize ≠ 0 ∨
      number * pager.pageSize % pager.pageSize ≠ 0) := by simp
  rw [Pager.internalLockCompleted, if_neg aligned, Pager.pagesOf_page, Pager.onPage,
    Page.internalLockCompleted]
  by_cases terminating : pager.terminating = true
  · have isSame : pager.setPage number (pager.page number) = pager := pager.setPage_page number
    rw [if_pos terminating, if_pos (by exact terminating), Option.map_some, isSame]
  rw [if_neg terminating, if_neg (by exact terminating)]
  simp only [Loop.forEach, Pager.onPageFlag]
  cases isEntered : (pager.page number).internalLockCompletedEnter client with
  | none => rfl
  | some state =>
      rcases state with ⟨entered, operation⟩
      have entering : Page.SameConstants (pager.page number) entered :=
        (Page.stable_internalLockCompletedEnter client).constants isEntered
      have calling : Page.SameConstants entered (entered.internalLockCompletedCall operation) :=
        (Page.stable_internalLockCompletedCall operation).constants rfl
      have called := Pager.onPage_setPage (Page.stable_internalLockCompletedCall operation) entering
      have exited := Pager.onPage_setPage
        (Page.stable_internalLockCompletedExit (results number) operation)
        (entering.trans calling)
      simp only [Option.map_some, Option.bind_some, Option.bind_fun_some, Function.update_self,
        called]
      exact exited

theorem internalLockCompleted_ends_page {number : ℕ} {entered : Page}
    (stored : Mirrors past shared (pager.setPage number entered))
    (constants : Page.SameConstants (pager.page number) entered)
    (within : number * pager.pageSize + pager.pageSize ≤ offsetRange) :
    EndsAs results past
      (shared.internalLockCompleted client (number * pager.pageSize) pager.pageSize none)
      ((entered.internalLockCompleted client (results number)).map (pager.setPage number)) := by
  have isOnPage : (pager.setPage number entered).internalLockCompleted client
      (number * pager.pageSize) pager.pageSize results =
        (pager.setPage number entered).onPage number fun page =>
          page.internalLockCompleted client (results number) :=
    (pager.setPage number entered).internalLockCompleted_page client number results
  have ends : EndsAs results past
      (shared.internalLockCompleted client (number * pager.pageSize) pager.pageSize none)
      ((pager.setPage number entered).internalLockCompleted client
        (number * pager.pageSize) pager.pageSize results) :=
    internalLockCompleted_ends_self stored within
  rwa [isOnPage, Pager.onPage_setPage (stable_internalLockCompleted client (results number))
    constants] at ends

theorem Pager.emitAll_setPage (pager : Pager) (number : ℕ) (page : Page) (event : PageEvent) :
    (pager.setPage number page).emitAll [.page number event] =
      pager.setPage number (page.send event) := by
  simp [Pager.emitAll, Pager.setPage, Page.send, Pager.setLocks]

theorem dataRequest_ends (mirrors : Mirrors past shared pager) (access : VmProt)
    (within : offset + length ≤ offsetRange) :
    EndsAs results past (shared.dataRequest client offset length access)
      (pager.dataRequest client offset length access results) := by
  rw [SharedPager.dataRequest, Pager.dataRequest, mirrors.pageSize, mirrors.terminating]
  split_ifs with misaligned terminating
  · exact .fails
  · exact .done mirrors
  rw [not_or, not_not, not_not] at misaligned
  rcases misaligned with ⟨rfl, aligned⟩
  dsimp only
  generalize isNumber : offset / pager.pageSize = number
  have isOffset : number * pager.pageSize = offset := by
    rw [← isNumber]
    exact Nat.div_mul_cancel (Nat.dvd_of_mod_eq_zero aligned)
  have hasOffset : pager.HasOffset number := by
    have isPos := pager.pageSize_pos
    rw [Pager.HasOffset, isOffset]
    omega
  have works := Works.load mirrors number
  have isPage : (shared.load number).page number = pager.page number := works.page_self hasOffset
  have sameErrors : (shared.load number).nexterror ((shared.load number).offsetOf number) =
      (pager.page number).nexterror :=
    congrArg Page.nexterror isPage
  rw [sameErrors, Pager.onPage, Page.dataRequest]
  cases isTaken : Page.takeNexterror client (pager.page number).nexterror with
  | some taken =>
      rcases taken with ⟨found, rest⟩
      have isEntered : (pager.page number).dataRequestEnter client (wantsWrite access) =
          ({ (pager.page number).send (.dataError client found.error) with nexterror := rest },
            .done) := by
        rw [Page.dataRequestEnter, isTaken]
      have stored := works.setPage hasOffset
        { (pager.page number).send (.dataError client found.error) with nexterror := rest }
      dsimp only
      rw [isEntered, SharedPager.onTmp, isPage]
      -- the entry in `tmp_pagemap_entry`, with the error, is not stored
      refine .done { stored with pagemap := ?_ }
      intro other
      have isEntry : (pager.setPage number { (pager.page number).send
          (.dataError client found.error) with nexterror := rest }).pagemap = pager.pagemap :=
        Function.update_eq_self ..
      have isRead : (shared.load number).read other = shared.read other := Interned.read_load _ _ _
      rw [isEntry]
      exact isRead.trans (mirrors.pagemap other)
  | none =>
      dsimp only
      rw [SharedPager.onTmp, isPage, Option.map_some, Option.bind_some]
      have constants := (pager.page number).dataRequestEnter_constants client (wantsWrite access)
      generalize (pager.page number).dataRequestEnter client (wantsWrite access) = state at constants ⊢
      rcases state with ⟨entered, stage⟩
      have stored : Mirrors past (((shared.load number).putPage number entered).store number)
        (pager.setPage number entered) := works.setPage hasOffset entered
      cases stage with
      | done => exact .done stored
      | lockCompleted =>
          have ends : EndsAs results past
              ((((shared.load number).putPage number entered).store number).internalLockCompleted
                client (number * pager.pageSize) pager.pageSize none)
              ((entered.internalLockCompleted client (results number)).map
                (pager.setPage number)) :=
            internalLockCompleted_ends_page stored constants (by rw [isOffset]; exact within)
          rw [isOffset, ← mirrors.pageSize] at ends
          exact ends
      | pagein =>
          refine .goesOn rfl rfl stored ?_ fun locked isLocked => ?_
          · intro call isCall
            rw [List.mem_singleton.mp isCall]
            exact hasOffset
          · have again : Mirrors past locked (pager.setPage number (entered.send .readPage)) := by
              rw [← pager.emitAll_setPage]
              exact isLocked
            have sending : Page.SameConstants (pager.page number) (entered.send .readPage) :=
              constants.trans ⟨rfl, rfl⟩
            have isOnPage : (pager.setPage number (entered.send .readPage)).onPage number
                (fun page => page.finishPagein (results number).read) =
                  ((entered.send .readPage).finishPagein (results number).read).map
                    (pager.setPage number) :=
              Pager.onPage_setPage
                (Page.stable_internalLockCompletedExit (results number) .pagein) sending
            have passed := again.alongside.plainPass hasOffset
              fun number page => page.finishPagein (results number).read
            rw [isOnPage] at passed
            have answered : (Call.answers results [.readPage number] number).read =
              (results number).read := Call.answers_read List.mem_cons_self
            rw [SharedPager.reenter, answered]
            exact .of_rel passed

end Handlers

end Hurd.Libpager
