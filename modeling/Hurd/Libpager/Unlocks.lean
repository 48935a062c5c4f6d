import Hurd.Libpager.Asserts

/-!
# Unlocking several pages

`data_unlock` takes each page of its message through the same branches as a message for that page
alone would, but the flushes of a page that has to be taken away from its readers name the offset of
the message.  They are counted, and sent, for the first page.
-/

namespace Hurd.Libpager

/-- A `memory_object_lock_request` message -/
def Event.isLockRequest : Event → Bool
  | .page _ (.lockRequest ..) => true
  | .lockRequest .. => true
  | _ => false

namespace Page

variable {page next : Page} {client : MachPort} {results : PageCallbacks}

/-- The asserts of `data_unlock` -/
structure UnlockAsserts (page : Page) (client : MachPort) : Prop where
  listed : client ∈ page.entry.accesslist
  notGranted : page.entry.writeAccessGranted = false
  notPagingout : page.entry.pagingout = false

/-- `data_unlock` of a single page -/
def unlockAlone (client : MachPort) (results : PageCallbacks) (page : Page) : Option Page :=
  if page.terminating then some page else page.dataUnlock client true [] results

theorem unlockAlone_total (asserts : page.UnlockAsserts client) :
    ∃ next, page.unlockAlone client results = some next := by
  unfold unlockAlone
  split_ifs
  · exact ⟨_, rfl⟩
  · exact dataUnlock_total true [] results asserts.listed asserts.notGranted asserts.notPagingout

theorem unlockAlone_of_running (running : page.terminating = false) :
    page.unlockAlone client results = page.dataUnlock client true [] results :=
  if_neg (Bool.eq_false_iff.mp running)

/-- A page that is not taken away from anybody is unlocked as if it were alone. -/
theorem dataUnlock_of_not_revokes (notRevoked : ¬page.RevokesOnUnlock) :
    page.dataUnlock client false [] results = page.dataUnlock client true [] results := by
  unfold dataUnlock
  cases enters : page.dataUnlockEnter client with
  | none => rfl
  | some result =>
      rcases result with ⟨entered, doUnlock, flushes⟩
      have noFlushes : flushes = [] := by
        rw [List.eq_nil_iff_forall_not_mem]
        exact fun flushed isFlushed => notRevoked (dataUnlockEnter_flushes enters flushed isFlushed).1
      rw [noFlushes]
      rfl

/-- The flushes of a page that is taken away are counted where they are sent. -/
theorem dataUnlock_lockCount {first : Bool} {others : List MachPort} (revoked : page.RevokesOnUnlock)
    (unlocked : page.dataUnlock client first others results = some next) :
    next.lockCount client = page.lockCount client +
      if first then 1 + others.count client else 0 := by
  cases dataUnlock_cases unlocked with
  | ignored _ writerWaits =>
      simp [PagemapEntry.isAnyClientWaitingForWriteAccess, revoked.1] at writerWaits
  | queued _ _ _ waiting => exact absurd revoked.1 waiting
  | alone _ _ _ onlyOne =>
      have shared := revoked.2
      omega
  | revokes listed _ _ _ nextEq =>
      rw [nextEq, flushEach_lockCount]
      have same : (page.addToWaitlist client true).lockCount client = page.lockCount client := rfl
      rw [same]
      cases first with
      | false => rfl
      | true => simp [count_accesslist, listed]

end Page

namespace Pager

variable {pager next : Pager} {client : MachPort} {results : Callbacks}

/-- The pages are unlocked by one message each. -/
def unlockOneByOne (pager : Pager) (client : MachPort) (pages : List ℕ) (results : Callbacks) :
    Option Pager :=
  Loop.forEach (fun number pager =>
    pager.dataUnlock client (number * pager.pageSize) pager.pageSize results) pages pager

theorem unlockAlone_local (number : ℕ) :
    Loop.LocalTo view (fun pager =>
        pager.dataUnlock client (number * pager.pageSize) pager.pageSize results) number
      (Page.unlockAlone client (results number)) where
  own := by
    intro pager next done
    have divided : number * pager.pageSize / pager.pageSize = number :=
      Nat.mul_div_cancel _ pager.pageSize_pos
    rcases dataUnlock_view done with ⟨-, ⟨ended, rfl⟩ | ⟨running, -, -, own, -⟩⟩
    · exact if_pos ended
    · rw [pagesOf_page, divided] at own
      rcases own number List.mem_cons_self with ⟨others, othersListed, unlocked⟩
      have noOthers : others = [] := by
        rw [List.eq_nil_iff_forall_not_mem]
        intro other isOther
        rcases othersListed other isOther with ⟨later, isPage, different, -⟩
        exact different (List.mem_singleton.mp isPage)
      rw [noOthers, decide_eq_true rfl] at unlocked
      have notTerminating : ¬(pager.view number).terminating = true :=
        Bool.eq_false_iff.mp running
      exact (if_neg notTerminating).trans unlocked
  frame := by
    intro pager next other done different
    rcases dataUnlock_view done with ⟨-, ⟨-, rfl⟩ | ⟨-, -, -, -, frame⟩⟩
    · rfl
    · apply frame
      rw [pagesOf_page]
      simpa using different
  total := by
    intro pager seen done
    by_cases ended : pager.terminating = true
    · refine ⟨pager, ?_⟩
      simp [dataUnlock, ended]
    · have unlocked : (pager.view number).dataUnlock client true [] (results number) = some seen :=
        (if_neg ended).symm.trans done
      exact dataUnlock_total (Bool.eq_false_iff.mpr ended) unlocked

/-- The first loop of `data_unlock` fails only where an assert does. -/
theorem forEach_unlockPass_total {first : ℕ} {pages : List ℕ} (distinct : pages.Nodup)
    {state : Pager × (ℕ → Bool)}
    (asserts : ∀ number ∈ pages, (state.1.view number).UnlockAsserts client) :
    ∃ next, Loop.forEach (unlockPass client first) pages state = some next := by
  induction pages generalizing state with
  | nil => exact ⟨state, rfl⟩
  | cons head tail ih =>
      rcases List.nodup_cons.mp distinct with ⟨headNotMem, tailDistinct⟩
      have headAsserts := asserts head List.mem_cons_self
      rcases Page.dataUnlockEnter_total headAsserts.listed headAsserts.notGranted
        headAsserts.notPagingout with
        ⟨entered, doUnlock, flushes, enters, -⟩
      have passed : ∃ middle, unlockPass client first head state = some middle := by
        rw [← (Page.stable_dataUnlockEnter client).andThenFlag_eq] at enters
        rcases Option.map_eq_some_iff.mp enters with ⟨⟨page, pageUnlock, pageFlushes⟩, pageEnters, -⟩
        simp only [unlockPass, Option.bind_eq_some_iff]
        exact ⟨_, _, pageEnters, rfl⟩
      rcases passed with ⟨middle, headDone⟩
      rcases unlockPass_view headDone with ⟨-, _, _, _, -, -, -, -, firstView, frame⟩
      have sameEntry : ∀ number ∈ tail,
          (middle.1.view number).entry = (state.1.view number).entry := by
        intro number isLater
        have different : number ≠ head := fun same => headNotMem (same ▸ isLater)
        by_cases isFirst : number = first
        · subst isFirst
          rw [firstView (Ne.symm different), Page.flushEach_entry]
        · rw [frame number different isFirst]
      have later : ∀ number ∈ tail, (middle.1.view number).UnlockAsserts client := by
        intro number isLater
        have before := asserts number (List.mem_cons_of_mem _ isLater)
        constructor
        · rw [sameEntry number isLater]
          exact before.listed
        · rw [sameEntry number isLater]
          exact before.notGranted
        · rw [sameEntry number isLater]
          exact before.notPagingout
      rcases ih tailDistinct later with ⟨next, tailDone⟩
      exact ⟨next, by rw [Loop.forEach, headDone, Option.bind_some, tailDone]⟩

theorem dataUnlock_total_of_asserts {first count : ℕ}
    (asserts : ∀ number ∈ List.range' first count, (pager.view number).UnlockAsserts client) :
    ∃ next, pager.dataUnlock client (first * pager.pageSize) (count * pager.pageSize) results =
      some next := by
  have pages : pager.pagesOf (first * pager.pageSize) (count * pager.pageSize) =
      List.range' first count := by
    rw [pagesOf, Nat.mul_div_cancel _ pager.pageSize_pos, Nat.mul_div_cancel _ pager.pageSize_pos]
  have divided : first * pager.pageSize / pager.pageSize = first :=
    Nat.mul_div_cancel _ pager.pageSize_pos
  have distinct : (List.range' first count).Nodup := List.nodup_range'
  unfold dataUnlock
  rw [if_neg (by simp), pages, divided]
  split_ifs
  · exact ⟨_, rfl⟩
  · rcases @forEach_unlockPass_total client first _ distinct (pager, fun _ => false) asserts with
      ⟨⟨entering, flags⟩, enterDone⟩
    rcases forEach_unlockPass_view enterDone with ⟨-, enterOwn, -⟩
    rcases forEach_onPage_total entering distinct
      (fun other => Page.stable_unlockCall (flags other)) (fun _ _ => ⟨_, rfl⟩) with
      ⟨called, callDone⟩
    simp only [enterDone, Option.bind_some, callDone]
    apply forEach_onPage_total called distinct
      (fun other => Page.stable_unlockExit (flags other) (results other))
    intro number isPage
    rcases forEach_onPage distinct (fun other => Page.stable_unlockCall (flags other)) callDone with
      ⟨-, callOwn, -⟩
    have callsPage := Option.some_inj.mp (callOwn number isPage)
    rcases enterOwn number isPage with ⟨entered, flushes, others, -, enters, viewEq⟩
    have sameWaitlist : (called.view number).entry.waitlist = entered.entry.waitlist := by
      rw [← callsPage, viewEq]
      unfold Page.unlockCall
      split_ifs <;> simp [Page.send]
    unfold Page.unlockExit
    split_ifs with doesUnlock
    · apply Page.finalizeUnlock_total
      rw [sameWaitlist]
      have pageAsserts := asserts number isPage
      rcases Page.dataUnlockEnter_total pageAsserts.listed pageAsserts.notGranted
        pageAsserts.notPagingout with ⟨entered', doUnlock, flushes', enters', waiting⟩
      have same := enters.symm.trans enters'
      simp only [Option.some_inj, Prod.mk.injEq] at same
      rw [same.1]
      exact waiting (same.2.1 ▸ doesUnlock)
    · exact ⟨_, rfl⟩

/-- The same pagemap, lock records and errors, and the same lock requests in any order -/
structure SameUnlock (multi single : Pager) : Prop where
  pagemap : multi.pagemap = single.pagemap
  outstandingLocks : ∀ key, multi.outstandingLocks.find? key = single.outstandingLocks.find? key
  nexterror : multi.nexterror = single.nexterror
  lockRequests : (multi.sent.filter Event.isLockRequest).Perm
    (single.sent.filter Event.isLockRequest)

theorem count_page_eq (number : ℕ) (event : PageEvent) (sent : List Event) :
    sent.count (.page number event) = (eventsOf number sent).count event := by
  induction sent with
  | nil => rfl
  | cons head rest ih =>
      have split : eventsOf number (head :: rest) =
          eventsOf number [head] ++ eventsOf number rest := eventsOf_append number [head] rest
      rw [split, List.count_append, ← ih, List.count_cons, Nat.add_comm]
      congr 1
      cases head with
      | page other otherEvent =>
          by_cases same : other = number
          · subst same
            by_cases sameEvent : otherEvent = event
            · simp [eventsOf, sameEvent]
            · simp [eventsOf, sameEvent]
          · simp [eventsOf, same]
      | lockRequest | ready | changeCompleted | wakeLockWaiters | wakeWriteWaiters =>
          simp [eventsOf]

/-- What the pages have seen decides all that the unlocks may change. -/
theorem sameUnlock_of_view {multi single : Pager} (nothingSent : pager.sent = [])
    (multiRest : SameRest pager multi) (singleRest : SameRest pager single)
    (sameViews : ∀ number, multi.view number = single.view number) : SameUnlock multi single where
  pagemap := funext fun number => congrArg Page.entry (sameViews number)
  nexterror := funext fun number => congrArg Page.nexterror (sameViews number)
  outstandingLocks key := by
    by_cases isPage : ∃ number, key = pager.pageKey number
    · rcases isPage with ⟨number, rfl⟩
      have sameLocks := congrArg Page.locks (sameViews number)
      simp only [view, page, multiRest.pageKey, singleRest.pageKey] at sameLocks
      exact sameLocks
    · rw [not_exists] at isPage
      rw [multiRest.locks key isPage, singleRest.locks key isPage]
  lockRequests := by
    rw [List.perm_iff_count]
    intro event
    by_cases isRequest : event.isLockRequest = true
    · rw [List.count_filter isRequest, List.count_filter isRequest]
      cases event with
      | page number event =>
          have sameSent := congrArg Page.sent (sameViews number)
          rw [count_page_eq, count_page_eq]
          exact congrArg (List.count event) sameSent
      | lockRequest client offset length shouldReturn shouldFlush lockValue replyRequested =>
          have notSent : ∀ {next}, SameRest pager next → Event.lockRequest client offset length
              shouldReturn shouldFlush lockValue replyRequested ∉ next.sent := by
            intro next rest isSent
            rcases rest.told _ isSent with before | notDirect
            · simp [nothingSent] at before
            · cases notDirect
          rw [List.count_eq_zero_of_not_mem (notSent multiRest),
            List.count_eq_zero_of_not_mem (notSent singleRest)]
      | ready | changeCompleted | wakeLockWaiters | wakeWriteWaiters => cases isRequest
    · have notCounted : ∀ sent : List Event,
          (sent.filter Event.isLockRequest).count event = 0 := by
        intro sent
        apply List.count_eq_zero_of_not_mem
        intro isSent
        exact isRequest (List.mem_filter.mp isSent).2
      rw [notCounted, notCounted]

theorem unlockOneByOne_view {pages : List ℕ} (distinct : pages.Nodup)
    (done : pager.unlockOneByOne client pages results = some next) :
    SameRest pager next ∧
      (∀ number ∈ pages, (pager.view number).unlockAlone client (results number) =
        some (next.view number)) ∧
      ∀ other ∉ pages, next.view other = pager.view other := by
  rcases Loop.forEach_view distinct (fun number _ => unlockAlone_local number) done with
    ⟨own, frame⟩
  refine ⟨?_, own, frame⟩
  apply Loop.forEach_relation SameRest SameRest.refl SameRest.trans _ done
  intro number before after unlocked
  exact (dataUnlock_view unlocked).1

section SeveralPages

variable {multi single : Pager} {first count : ℕ}
  (multiDone : pager.dataUnlock client (first * pager.pageSize) (count * pager.pageSize) results =
    some multi)
  (singleDone : pager.unlockOneByOne client (List.range' first count) results = some single)

include multiDone in
theorem dataUnlock_pages_view :
    SameRest pager multi ∧
      ((pager.terminating = true ∧ multi = pager) ∨ pager.terminating = false ∧
        (∀ number ∈ List.range' first count, ∃ others,
          (∀ other ∈ others, ∃ number ∈ List.range' first count, number ≠ first ∧
            (pager.view number).RevokesOnUnlock) ∧
          (pager.view number).dataUnlock client (number = first) others (results number) =
            some (multi.view number)) ∧
        ∀ other ∉ List.range' first count, multi.view other = pager.view other) := by
  have pages : pager.pagesOf (first * pager.pageSize) (count * pager.pageSize) =
      List.range' first count := by
    rw [pagesOf, Nat.mul_div_cancel _ pager.pageSize_pos, Nat.mul_div_cancel _ pager.pageSize_pos]
  have divided : first * pager.pageSize / pager.pageSize = first :=
    Nat.mul_div_cancel _ pager.pageSize_pos
  rcases dataUnlock_view multiDone with ⟨rest, ended | ⟨running, -, -, own, frame⟩⟩
  · exact ⟨rest, Or.inl ended⟩
  · rw [pages, divided] at own
    rw [pages] at frame
    refine ⟨rest, Or.inr ⟨running, ?_, frame⟩⟩
    intro number isPage
    rcases own number isPage with ⟨others, othersListed, unlocked⟩
    refine ⟨others, ?_, unlocked⟩
    intro other isOther
    rcases othersListed other isOther with ⟨later, isLater, different, revoked, -⟩
    exact ⟨later, isLater, different, revoked⟩

include multiDone singleDone in
/-- The flushes of a page after the first are counted for the first page. -/
theorem not_revokes_of_sameUnlock (same : SameUnlock multi single)
    (running : pager.terminating = false) {number : ℕ} (isPage : number ∈ List.range' first count)
    (different : number ≠ first) : ¬(pager.view number).RevokesOnUnlock := by
  intro revoked
  rcases unlockOneByOne_view List.nodup_range' singleDone with ⟨singleRest, singleOwn, -⟩
  rcases dataUnlock_pages_view multiDone with ⟨multiRest, ⟨ended, -⟩ | ⟨-, multiOwn, -⟩⟩
  · exact absurd ended (Bool.eq_false_iff.mp running)
  · rcases multiOwn number isPage with ⟨others, -, multiUnlocks⟩
    have singleUnlocks := singleOwn number isPage
    rw [Page.unlockAlone_of_running running] at singleUnlocks
    have multiCount := Page.dataUnlock_lockCount revoked multiUnlocks
    have singleCount := Page.dataUnlock_lockCount revoked singleUnlocks
    have sameCount : (multi.view number).lockCount client =
        (single.view number).lockCount client := by
      simp only [Page.lockCount, Page.lock?, view, page, multiRest.pageKey, singleRest.pageKey,
        same.outstandingLocks (pager.pageKey number)]
    simp only [different, decide_false, Bool.false_eq_true, if_false, if_true, List.count_nil]
      at multiCount singleCount
    omega

include multiDone singleDone in
theorem sameViews_of_not_revokes (notRevoked : pager.terminating = false →
      ∀ number ∈ List.range' first count, number ≠ first →
        ¬(pager.view number).RevokesOnUnlock) (number : ℕ) :
    multi.view number = single.view number := by
  rcases unlockOneByOne_view List.nodup_range' singleDone with ⟨-, singleOwn, singleFrame⟩
  by_cases isPage : number ∈ List.range' first count
  · have alone := singleOwn number isPage
    rcases dataUnlock_pages_view multiDone with ⟨-, ⟨ended, rfl⟩ | ⟨running, multiOwn, -⟩⟩
    · have ignored : (multi.view number).unlockAlone client (results number) =
          some (multi.view number) := if_pos ended
      rw [ignored] at alone
      exact Option.some_inj.mp alone
    · rw [Page.unlockAlone_of_running running] at alone
      rcases multiOwn number isPage with ⟨others, othersListed, multiUnlocks⟩
      have noOthers : others = [] := by
        rw [List.eq_nil_iff_forall_not_mem]
        intro other isOther
        rcases othersListed other isOther with ⟨later, isLater, different, revoked⟩
        exact notRevoked running later isLater different revoked
      have sameUnlock : (pager.view number).dataUnlock client (number = first) others
          (results number) = (pager.view number).dataUnlock client true [] (results number) := by
        rw [noOthers]
        by_cases isFirst : number = first
        · rw [decide_eq_true isFirst]
        · rw [decide_eq_false isFirst]
          exact Page.dataUnlock_of_not_revokes (notRevoked running number isPage isFirst)
      rw [sameUnlock, alone] at multiUnlocks
      exact (Option.some_inj.mp multiUnlocks).symm
  · rw [singleFrame number isPage]
    rcases dataUnlock_pages_view multiDone with ⟨-, ⟨-, rfl⟩ | ⟨-, -, multiFrame⟩⟩
    · rfl
    · exact multiFrame number isPage

end SeveralPages

theorem unlocks_of_asserts {first count : ℕ}
    (asserts : ∀ number ∈ List.range' first count, (pager.page number).UnlockAsserts client) :
    ∃ multi single,
      pager.handle (.dataUnlock client (first * pager.pageSize) (count * pager.pageSize),
        results) = some multi ∧
      ({ pager with sent := [] } : Pager).unlockOneByOne client (List.range' first count) results =
        some single := by
  let fresh : Pager := { pager with sent := [] }
  have freshAsserts : ∀ number ∈ List.range' first count,
      (fresh.view number).UnlockAsserts client := by
    intro number isPage
    have before := asserts number isPage
    exact ⟨before.listed, before.notGranted, before.notPagingout⟩
  rcases @dataUnlock_total_of_asserts fresh client results first count freshAsserts with
    ⟨multi, multiDone⟩
  rcases @Loop.forEach_total _ _ _ view _ _ _ List.nodup_range'
    (fun number _ => @unlockAlone_local client results number) fresh
    (fun number isPage => Page.unlockAlone_total (freshAsserts number isPage)) with
    ⟨single, singleDone⟩
  exact ⟨multi, single, multiDone, singleDone⟩

/--
Unlocking several pages by one message is the same as unlocking them one by one, unless a page
after the first has to be taken away from several readers.
-/
theorem dataUnlock_sameUnlock_iff {first count : ℕ}
    (asserts : ∀ number ∈ List.range' first count, (pager.page number).UnlockAsserts client) :
    ∃ multi single,
      pager.handle (.dataUnlock client (first * pager.pageSize) (count * pager.pageSize),
        results) = some multi ∧
      ({ pager with sent := [] } : Pager).unlockOneByOne client (List.range' first count) results =
        some single ∧
      (SameUnlock multi single ↔ (pager.terminating = false →
        ∀ number ∈ List.range' first count, number ≠ first →
          ¬(pager.page number).RevokesOnUnlock)) := by
  rcases unlocks_of_asserts asserts with ⟨multi, single, multiDone, singleDone⟩
  have unlocks : ({ pager with sent := [] } : Pager).dataUnlock client (first * pager.pageSize)
      (count * pager.pageSize) results = some multi := multiDone
  refine ⟨multi, single, multiDone, singleDone, ?_, ?_⟩
  · intro same running number isPage different
    exact not_revokes_of_sameUnlock unlocks singleDone same running isPage different
  · intro notRevoked
    apply sameUnlock_of_view rfl (dataUnlock_view unlocks).1
      (unlockOneByOne_view List.nodup_range' singleDone).1
    exact sameViews_of_not_revokes unlocks singleDone notRevoked

theorem mem_twoPages : ∀ number ∈ List.range' 0 2, number = 0 ∨ number = 1 := by decide

/-- A client reads the first two pages, alone. -/
def twoPagesRun : List (Input × Callbacks) :=
  [(.dataRequest 1 0 4096 vmProtNone, fun _ => {}),
    (.dataRequest 1 4096 4096 vmProtNone, fun _ => {})]

theorem twoPagesRun_sameUnlock : ∃ pager multi single,
    Transition.run handle twoPagesRun (create 4096 (by decide) false 0 false) = some pager ∧
      pager.handle (.dataUnlock 1 0 8192, fun _ => {}) = some multi ∧
      ({ pager with sent := [] } : Pager).unlockOneByOne 1 [0, 1] (fun _ => {}) = some single ∧
      SameUnlock multi single := by
  have reached : ∃ pager, Transition.run handle twoPagesRun
      (create 4096 (by decide) false 0 false) = some pager ∧ pager.pageSize = 4096 ∧
      ∀ number ∈ List.range' 0 2, (pager.page number).UnlockAsserts 1 ∧
        (pager.page number).entry.accesslist.size = 1 := by
    refine ⟨_, rfl, ?_⟩
    refine ⟨rfl, ?_⟩
    intro number isPage
    rcases mem_twoPages number isPage with rfl | rfl
    · exact ⟨⟨by decide, by decide, by decide⟩, by decide⟩
    · exact ⟨⟨by decide, by decide, by decide⟩, by decide⟩
  rcases reached with ⟨pager, runs, sized, alone⟩
  rcases @dataUnlock_sameUnlock_iff pager 1 (fun _ => {}) 0 2
    (fun number isPage => (alone number isPage).1) with ⟨multi, single, multiDone, singleDone, same⟩
  rw [sized] at multiDone
  refine ⟨pager, multi, single, runs, multiDone, singleDone, same.mpr ?_⟩
  intro _ number isPage _ revoked
  have shared := revoked.2
  rw [(alone number isPage).2] at shared
  omega

/-- Two clients read the second page. -/
def sharedPagesRun : List (Input × Callbacks) :=
  [(.dataRequest 1 0 4096 vmProtNone, fun _ => {}),
    (.dataRequest 1 4096 4096 vmProtNone, fun _ => {}),
    (.dataRequest 2 4096 4096 vmProtNone, fun _ => {})]

/-- The second page's flushes go to the first page when both are unlocked at once. -/
theorem sharedPagesRun_not_sameUnlock : ∃ pager multi single,
    Transition.run handle sharedPagesRun (create 4096 (by decide) false 0 false) = some pager ∧
      (∀ number ∈ List.range' 0 2, (pager.page number).UnlockAsserts 1) ∧
      pager.handle (.dataUnlock 1 0 8192, fun _ => {}) = some multi ∧
      ({ pager with sent := [] } : Pager).unlockOneByOne 1 [0, 1] (fun _ => {}) = some single ∧
      ¬SameUnlock multi single := by
  have reached : (Transition.run handle sharedPagesRun (create 4096 (by decide) false 0 false)).map
      (fun pager => (pager.pageSize, pager.terminating, pager.pagemap 0, pager.pagemap 1)) =
      some (4096, false, { accesslist := OrdSet.insert 1 ∅ },
        { accesslist := OrdSet.insert 2 (OrdSet.insert 1 ∅) }) := rfl
  rcases Option.map_eq_some_iff.mp reached with ⟨pager, runs, facts⟩
  simp only [Prod.mk.injEq] at facts
  rcases facts with ⟨sized, running, firstPage, secondPage⟩
  have asserts : ∀ number ∈ List.range' 0 2, (pager.page number).UnlockAsserts 1 := by
    intro number isPage
    rcases mem_twoPages number isPage with rfl | rfl
    · constructor <;> simp [page, firstPage]
    · constructor <;> simp [page, secondPage]
  have shared : (pager.page 1).RevokesOnUnlock := by
    simp only [Page.RevokesOnUnlock, page, secondPage]
    decide
  rcases @unlocks_of_asserts _ _ (fun _ => {}) _ _ asserts with
    ⟨multi, single, multiDone, singleDone⟩
  have multiHandled := multiDone
  rw [sized] at multiHandled
  refine ⟨pager, multi, single, runs, asserts, multiHandled, singleDone, ?_⟩
  intro same
  have unlocks : ({ pager with sent := [] } : Pager).dataUnlock 1 (0 * pager.pageSize)
      (2 * pager.pageSize) (fun _ => {}) = some multi := multiDone
  have isSecond : 1 ∈ List.range' 0 2 := by decide
  exact not_revokes_of_sameUnlock unlocks singleDone same running isSecond (by decide) shared

end Pager

end Hurd.Libpager
