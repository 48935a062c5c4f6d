import Hurd.Lib.Lockstep
import Hurd.Libpager.WriteOrder

/-!
# The shared pagemap and a plain vector

The pager is run in lockstep with one whose pagemap is a vector of entries that are changed in
place.  While no page is loaded, every page reads the same in both.  A routine works on
`tmp_pagemap_entry` in one and on the entry in the other, and `pagemap[n] = tmp_pagemap_entry`
makes them the same again, whatever the move leaves in `tmp_pagemap_entry`.

One change is never stored: where `data_request` answers from `NEXTERROR`, it sets `ERROR` and
returns.  The two pagers stay in lockstep where that would have changed nothing.
-/

namespace Hurd.Libpager

namespace InPlace

variable (map : InPlace) (number other : ℕ) (entry : PagemapEntry)

@[simp]
theorem read_touch : (map.touch number).read other = map.read other := by
  unfold read touch
  rw [getD_resizeWith]

theorem read_set (isIndex : number < map.records.length) :
    ({ map with records := map.records.set number entry } : InPlace).read other =
      if other = number then entry else map.read other := by
  unfold read
  simp only [List.getD_eq_getElem?_getD, List.getElem?_set]
  by_cases isSame : number = other
  · subst isSame
    simp [isIndex]
  · simp [isSame, Ne.symm isSame]

end InPlace

/-- Every page reads the same. -/
structure Agree (map : Interned) (plain : InPlace) : Prop where
  size : plain.records.length = map.pointers.length
  reads : ∀ number, plain.read number = map.read number

/-- A page is being worked on, and the others read the same. -/
structure WorkedOn (number : ℕ) (map : Interned) (plain : InPlace) : Prop where
  size : plain.records.length = map.pointers.length
  isIndex : number < plain.records.length
  cursor : plain.cursor = number
  own : plain.read number = map.tmp
  others : ∀ other, other ≠ number → plain.read other = map.read other

namespace Agree

variable {map : Interned} {plain : InPlace}

theorem touch (agree : Agree map plain) (number : ℕ) :
    Agree (map.touch number) (plain.touch number) := by
  refine ⟨?_, ?_⟩
  · simp only [Interned.touch, InPlace.touch, length_resizeWith, agree.size]
  · intro other
    rw [InPlace.read_touch, Interned.read_touch, agree.reads]

theorem share (agree : Agree map plain) (entry : PagemapEntry) : Agree (map.share entry) plain := by
  refine ⟨?_, ?_⟩
  · rw [agree.size]
    unfold Interned.share
    split <;> rfl
  · intro other
    rw [Interned.read_share, agree.reads]

theorem load (agree : Agree map plain) (number : ℕ) :
    WorkedOn number (Pagemap.load map number) (Pagemap.load plain number) := by
  have touched := agree.touch number
  refine ⟨touched.size, lt_length_resizeWith _ _ _, rfl, ?_, ?_⟩
  · exact touched.reads number
  · exact fun other _ => touched.reads other

end Agree

namespace WorkedOn

variable {number : ℕ} {map : Interned} {plain : InPlace}

theorem tmp (workedOn : WorkedOn number map plain) : Pagemap.tmp plain = Pagemap.tmp map := by
  have own := workedOn.own
  rw [← workedOn.cursor] at own
  exact own

theorem setTmp (workedOn : WorkedOn number map plain) (entry : PagemapEntry) :
    WorkedOn number (Pagemap.setTmp map entry) (Pagemap.setTmp plain entry) := by
  rcases workedOn with ⟨size, isIndex, rfl, own, others⟩
  have reads := fun other => plain.read_set plain.cursor other entry isIndex
  refine ⟨?_, ?_, rfl, ?_, ?_⟩
  · exact (List.length_set ..).trans size
  · exact lt_of_lt_of_eq isIndex (List.length_set ..).symm
  · exact (reads plain.cursor).trans (if_pos rfl)
  · intro other different
    exact ((reads other).trans (if_neg different)).trans (others other different)

theorem length_store (map : Interned) {number : ℕ} (isIndex : number < map.pointers.length) :
    (map.store number).pointers.length = map.pointers.length := by
  have touched : (map.touch number).pointers.length = map.pointers.length := by
    simp only [Interned.touch, length_resizeWith]
    omega
  unfold Interned.store
  dsimp only
  split
  · simp only [Interned.point, List.length_set, touched]
  · simp only [Interned.leave, Interned.point, List.length_set]
    exact touched

/-- The entry is stored, and every page reads the same again. -/
theorem store (workedOn : WorkedOn number map plain) :
    Agree (Pagemap.store map number) (Pagemap.store plain number) := by
  have isIndex : number < map.pointers.length := workedOn.size ▸ workedOn.isIndex
  refine ⟨?_, ?_⟩
  · exact workedOn.size.trans (length_store map isIndex).symm
  · intro other
    have stored := map.read_store number other
    refine Eq.trans ?_ stored.symm
    split_ifs with isSame
    · rw [isSame]
      exact workedOn.own
    · exact workedOn.others other isSame

/-- Nothing is lost where the entry has not been changed. -/
theorem unstored (workedOn : WorkedOn number map plain) (unchanged : map.tmp = map.read number) :
    Agree map plain := by
  refine ⟨workedOn.size, ?_⟩
  intro other
  by_cases isSame : other = number
  · rw [isSame, workedOn.own, unchanged]
  · exact workedOn.others other isSame

end WorkedOn

/-- The pager with another pagemap -/
def SharedPager.withMap {σ τ : Type} (pager : SharedPager σ) (map : τ) : SharedPager τ where
  pageSize := pager.pageSize
  pageSize_pos := pager.pageSize_pos
  mayCache := pager.mayCache
  copyStrategy := pager.copyStrategy
  notifyOnEvict := pager.notifyOnEvict
  terminating := pager.terminating
  clients := pager.clients
  writewait := pager.writewait
  nexterror := pager.nexterror
  outstandingLocks := pager.outstandingLocks
  outstandingChangeRequests := pager.outstandingChangeRequests
  pagemap := map
  sent := pager.sent

/-- An error that `data_request` finds in `NEXTERROR` is the error that the page already has. -/
def SharedPager.TakesKnown {σ : Type} [Pagemap σ] (pager : SharedPager σ) (client : MachPort)
    (offset : ℕ) : Prop :=
  pager.terminating = false → ∀ found rest,
    Page.takeNexterror client (pager.nexterror (pager.offsetOf (offset / pager.pageSize))) =
        some (found, rest) →
      found.error = (pager.read (offset / pager.pageSize)).error

/-- The pagers differ in how they keep the pagemap, which is related as `maps` says. -/
inductive Alike (maps : Interned → InPlace → Prop) :
    SharedPager Interned → SharedPager InPlace → Prop
  | mk (base : SharedPager Unit) {map : Interned} {plain : InPlace} (related : maps map plain) :
      Alike maps (base.withMap map) (base.withMap plain)

namespace Alike

variable {maps maps' : Interned → InPlace → Prop} {pager : SharedPager Interned}
  {plain : SharedPager InPlace} {number : ℕ} {Flag : Type}

/-- The pagers are alike, and a flag is the same. -/
def Flagged (maps : Interned → InPlace → Prop) (Flag : Type)
    (outcome : SharedPager Interned × Flag) (outcome' : SharedPager InPlace × Flag) : Prop :=
  Alike maps outcome.1 outcome'.1 ∧ outcome'.2 = outcome.2

theorem emit (alike : Alike maps pager plain) (event : Event) :
    Alike maps (pager.emit event) (plain.emit event) := by
  rcases alike with ⟨base, related⟩
  exact ⟨base.emit event, related⟩

theorem touch (alike : Alike Agree pager plain) (number : ℕ) :
    Alike Agree (pager.touch number) (plain.touch number) := by
  rcases alike with ⟨base, related⟩
  exact ⟨base, related.touch number⟩

theorem read (alike : Alike Agree pager plain) (number : ℕ) :
    plain.read number = pager.read number := by
  rcases alike with ⟨base, related⟩
  exact related.reads number

theorem load (alike : Alike Agree pager plain) (number : ℕ) :
    Alike (WorkedOn number) (pager.load number) (plain.load number) := by
  rcases alike with ⟨base, related⟩
  exact ⟨base, related.load number⟩

theorem store (alike : Alike (WorkedOn number) pager plain) :
    Alike Agree (pager.store number) (plain.store number) := by
  rcases alike with ⟨base, related⟩
  exact ⟨base, related.store⟩

/-- Nothing that is done to `tmp_pagemap_entry` can be read before it is stored. -/
theorem read_putPage (pager : SharedPager Interned) (number other : ℕ) (page : Page) :
    ((pager.load number).putPage number page).read other = pager.read other :=
  pager.pagemap.read_load number other

theorem unstored (alike : Alike (WorkedOn number) pager plain)
    (unchanged : pager.pagemap.tmp = pager.read number) : Alike Agree pager plain := by
  rcases alike with ⟨base, related⟩
  exact ⟨base, related.unstored unchanged⟩

theorem page (alike : Alike (WorkedOn number) pager plain) (other : ℕ) :
    plain.page other = pager.page other := by
  rcases alike with ⟨base, related⟩
  have same := related.tmp
  simp only [SharedPager.page, SharedPager.withMap, same]
  rfl

theorem putPage (alike : Alike (WorkedOn number) pager plain) (other : ℕ) (page : Page) :
    Alike (WorkedOn number) (pager.putPage other page) (plain.putPage other page) := by
  rcases alike with ⟨base, related⟩
  exact ⟨{ base.setLocks (base.pageKey other) page.locks with
    nexterror := Function.update base.nexterror (base.offsetOf other) page.nexterror
    sent := base.sent ++ page.sent.map (base.pageEvent other) }, related.setTmp page.entry⟩

theorem onTmp (alike : Alike (WorkedOn number) pager plain) (other : ℕ)
    (part : Page → Option (Page × Flag)) :
    Option.Rel (Flagged (WorkedOn number) Flag) (pager.onTmp other part) (plain.onTmp other part) := by
  unfold SharedPager.onTmp
  rw [alike.page other]
  cases part (pager.page other) with
  | none => exact .none
  | some result => exact .some ⟨alike.putPage other result.1, rfl⟩

theorem onPage (alike : Alike Agree pager plain) (number : ℕ)
    (part : Page → Option (Page × Flag)) :
    Option.Rel (Flagged Agree Flag) (pager.onPage number part) (plain.onPage number part) := by
  apply Lockstep.map ((alike.load number).onTmp number part)
  rintro ⟨worked, flag⟩ ⟨worked', _⟩ ⟨related, rfl⟩
  exact ⟨related.store, rfl⟩

theorem flagPass {part : ℕ → Page → Option (Page × Flag)}
    {state : SharedPager Interned × (ℕ → Flag)} {state' : SharedPager InPlace × (ℕ → Flag)}
    (alike : Flagged Agree (ℕ → Flag) state state') (number : ℕ) :
    Option.Rel (Flagged Agree (ℕ → Flag)) (SharedPager.flagPass part number state)
      (SharedPager.flagPass part number state') := by
  rcases state with ⟨pager, flags⟩
  rcases state' with ⟨plain, _⟩
  rcases alike with ⟨alike, rfl⟩
  apply Lockstep.map (alike.onPage number (part number))
  rintro ⟨worked, flag⟩ ⟨worked', _⟩ ⟨related, rfl⟩
  exact ⟨related, rfl⟩

theorem forEach_flagPass (alike : Alike Agree pager plain)
    (part : ℕ → Page → Option (Page × Flag)) (numbers : List ℕ) (flags : ℕ → Flag) :
    Option.Rel (Flagged Agree (ℕ → Flag))
      (Loop.forEach (SharedPager.flagPass part) numbers (pager, flags))
      (Loop.forEach (SharedPager.flagPass part) numbers (plain, flags)) := by
  apply Lockstep.forEach
  · intro number state state' related
    exact flagPass related number
  · exact ⟨alike, rfl⟩

theorem plainPass {part : ℕ → Page → Option Page} (alike : Alike Agree pager plain) (number : ℕ) :
    Option.Rel (Alike Agree) (SharedPager.plainPass part number pager)
      (SharedPager.plainPass part number plain) := by
  apply Lockstep.map (alike.onPage number _)
  rintro ⟨worked, _⟩ ⟨worked', _⟩ ⟨related, _⟩
  exact related

section Fields

variable (alike : Alike maps pager plain)
include alike

theorem pageSize : plain.pageSize = pager.pageSize := by
  rcases alike with ⟨base, related⟩
  rfl

theorem terminating : plain.terminating = pager.terminating := by
  rcases alike with ⟨base, related⟩
  rfl

theorem notifyOnEvict : plain.notifyOnEvict = pager.notifyOnEvict := by
  rcases alike with ⟨base, related⟩
  rfl

theorem writewait : plain.writewait = pager.writewait := by
  rcases alike with ⟨base, related⟩
  rfl

theorem nexterror : plain.nexterror = pager.nexterror := by
  rcases alike with ⟨base, related⟩
  rfl

theorem outstandingLocks : plain.outstandingLocks = pager.outstandingLocks := by
  rcases alike with ⟨base, related⟩
  rfl

theorem sent : plain.sent = pager.sent := by
  rcases alike with ⟨base, related⟩
  rfl

theorem offsetOf (number : ℕ) : plain.offsetOf number = pager.offsetOf number := by
  rw [SharedPager.offsetOf, alike.pageSize]
  rfl

theorem pagesOf (offset length : ℕ) : plain.pagesOf offset length = pager.pagesOf offset length := by
  rw [SharedPager.pagesOf, alike.pageSize]
  rfl

theorem matchingPageCountOnWritewait (number : ℕ) :
    plain.matchingPageCountOnWritewait number = pager.matchingPageCountOnWritewait number := by
  rcases alike with ⟨base, related⟩
  rfl

theorem dataFor (current : WritewaitEntry) (number : ℕ) :
    plain.dataFor current number = pager.dataFor current number := by
  rcases alike with ⟨base, related⟩
  rfl

theorem setLocks (key : LockKey) (locks : Option (OrdMap MachPort OutstandingClientLock)) :
    Alike maps (pager.setLocks key locks) (plain.setLocks key locks) := by
  rcases alike with ⟨base, related⟩
  exact ⟨base.setLocks key locks, related⟩

theorem storeLocks (key : LockKey) (locks : OrdMap MachPort OutstandingClientLock) :
    Alike maps (pager.storeLocks key locks) (plain.storeLocks key locks) := by
  unfold SharedPager.storeLocks
  split_ifs
  · exact (alike.emit _).setLocks _ _
  · exact alike.setLocks _ _

theorem popFront (current : WritewaitEntry) :
    Alike maps (pager.popFront current) (plain.popFront current) := by
  rcases alike with ⟨base, related⟩
  exact ⟨base.popFront current, related⟩

end Fields

theorem lockCompletedPass {state : SharedPager Interned × (ℕ → Page.Operation)}
    {state' : SharedPager InPlace × (ℕ → Page.Operation)} {client : MachPort}
    (alike : Flagged Agree (ℕ → Page.Operation) state state') (number : ℕ) :
    Option.Rel (Flagged Agree (ℕ → Page.Operation))
      (SharedPager.lockCompletedPass client number state)
      (SharedPager.lockCompletedPass client number state') := by
  rcases state with ⟨pager, flags⟩
  rcases state' with ⟨plain, _⟩
  rcases alike with ⟨alike, rfl⟩
  have touched := alike.touch number
  have same := touched.read number
  unfold SharedPager.lockCompletedPass
  dsimp only at touched same ⊢
  rw [same]
  split_ifs
  · exact .none
  · exact flagPass ⟨touched, rfl⟩ number
  · exact .some ⟨touched, rfl⟩

theorem internalLockCompleted (alike : Alike Agree pager plain) (client : MachPort)
    (offset length : ℕ) (drop : Option (MachPort × Option LockKey)) :
    Option.Rel (Flagged Agree (Option Thread))
      (pager.internalLockCompleted client offset length drop)
      (plain.internalLockCompleted client offset length drop) := by
  unfold SharedPager.internalLockCompleted
  rw [alike.pageSize, alike.terminating, alike.pagesOf]
  split_ifs
  · exact .none
  · exact .some ⟨alike, rfl⟩
  · have looped : Option.Rel (Flagged Agree (ℕ → Page.Operation))
        (Loop.forEach (SharedPager.lockCompletedPass client) (pager.pagesOf offset length)
          (pager, fun _ => .none))
        (Loop.forEach (SharedPager.lockCompletedPass client) (pager.pagesOf offset length)
          (plain, fun _ => .none)) := by
      apply Lockstep.forEach
      · intro number state state' related
        exact lockCompletedPass related number
      · exact ⟨alike, rfl⟩
    apply Lockstep.map looped
    rintro ⟨worked, flags⟩ ⟨worked', _⟩ ⟨related, rfl⟩
    exact ⟨related, rfl⟩

theorem operationPass (alike : Alike Agree pager plain) (operation : ℕ → Page.Operation)
    (results : Callbacks) (number : ℕ) :
    Option.Rel (Alike Agree) (SharedPager.operationPass operation results number pager)
      (SharedPager.operationPass operation results number plain) := by
  unfold SharedPager.operationPass
  split
  · exact .some alike
  · exact alike.plainPass number
  · exact alike.plainPass number

/-- `data_request` does the same where an error that it takes from `NEXTERROR` is no news. -/
theorem dataRequest (alike : Alike Agree pager plain) (client : MachPort) (offset length : ℕ)
    (access : VmProt)
    (known : pager.TakesKnown client offset) :
    Option.Rel (Flagged Agree (Option Thread)) (pager.dataRequest client offset length access)
      (plain.dataRequest client offset length access) := by
  unfold SharedPager.dataRequest
  rw [alike.pageSize, alike.terminating]
  split_ifs with unaligned ending
  · exact .none
  · exact .some ⟨alike, rfl⟩
  · have loaded := alike.load (offset / pager.pageSize)
    have sameList : (plain.load (offset / pager.pageSize)).nexterror
        ((plain.load (offset / pager.pageSize)).offsetOf (offset / pager.pageSize)) =
          pager.nexterror (pager.offsetOf (offset / pager.pageSize)) := by
      rw [loaded.nexterror, loaded.offsetOf]
      rfl
    have sameList' : (pager.load (offset / pager.pageSize)).nexterror
        ((pager.load (offset / pager.pageSize)).offsetOf (offset / pager.pageSize)) =
          pager.nexterror (pager.offsetOf (offset / pager.pageSize)) := rfl
    dsimp only
    rw [sameList, sameList']
    split
    · rename_i found rest isFound
      refine .some ⟨?_, rfl⟩
      rw [loaded.page]
      have worked := loaded.putPage (offset / pager.pageSize)
        { (((pager.load (offset / pager.pageSize)).page (offset / pager.pageSize)).send
            (.dataError client found.error)).setError found.error with nexterror := rest }
      apply worked.unstored
      have entry : ((pager.load (offset / pager.pageSize)).page (offset / pager.pageSize)).entry =
          pager.read (offset / pager.pageSize) := Interned.tmp_load _ _
      rw [read_putPage, ← entry]
      have same := known (Bool.eq_false_iff.mpr ending) found rest isFound
      rw [← entry] at same
      simp only [SharedPager.putPage, Page.setError, Page.send, same]
      rfl
    · have worked := loaded.onTmp (offset / pager.pageSize) fun page =>
        some (page.dataRequestEnter client (wantsWrite access))
      apply Lockstep.bind worked
      rintro ⟨entered, _⟩ ⟨entered', stage⟩ ⟨related, rfl⟩
      have stored := related.store
      dsimp only at stored ⊢
      cases stage with
      | done => exact .some ⟨stored, rfl⟩
      | lockCompleted =>
          rw [stored.pageSize]
          exact stored.internalLockCompleted client offset _ none
      | pagein => exact .some ⟨stored, rfl⟩

theorem lockCompleted (alike : Alike Agree pager plain) (client : MachPort) (offset length : ℕ) :
    Option.Rel (Flagged Agree (Option Thread)) (pager.lockCompleted client offset length)
      (plain.lockCompleted client offset length) := by
  unfold SharedPager.lockCompleted
  rw [alike.outstandingLocks]
  dsimp only
  cases pager.outstandingLocks.find? (toLex (offset, length)) with
  | none => exact .none
  | some locks =>
      simp only [Option.bind_some]
      cases locks.find? client with
      | none => exact .none
      | some record =>
          simp only [Option.bind_some]
          split_ifs
          · exact .none
          · exact (alike.storeLocks _ _).internalLockCompleted client offset length none
          · exact .some ⟨alike.storeLocks _ _, rfl⟩
          · exact .some ⟨alike.storeLocks _ _, rfl⟩

theorem unlockPass {state : SharedPager Interned × (ℕ → Bool)}
    {state' : SharedPager InPlace × (ℕ → Bool)} {client : MachPort} {first : ℕ}
    (alike : Flagged Agree (ℕ → Bool) state state') (number : ℕ) :
    Option.Rel (Flagged Agree (ℕ → Bool)) (SharedPager.unlockPass client first number state)
      (SharedPager.unlockPass client first number state') := by
  rcases state with ⟨pager, flags⟩
  rcases state' with ⟨plain, _⟩
  rcases alike with ⟨alike, rfl⟩
  apply Lockstep.bind ((alike.load number).onTmp number fun page => page.dataUnlockEnter client)
  rintro ⟨entered, _⟩ ⟨entered', doUnlock, flushes⟩ ⟨related, rfl⟩
  apply Lockstep.map (related.onTmp first fun page => some (page.flushEach flushes, ()))
  rintro ⟨flushed, _⟩ ⟨flushed', _⟩ ⟨related, _⟩
  exact ⟨related.store, rfl⟩

theorem dataUnlock (alike : Alike Agree pager plain) (client : MachPort) (offset length : ℕ) :
    Option.Rel (Flagged Agree (Option Thread)) (pager.dataUnlock client offset length)
      (plain.dataUnlock client offset length) := by
  unfold SharedPager.dataUnlock
  rw [alike.pageSize, alike.terminating, alike.pagesOf]
  split_ifs
  · exact .none
  · exact .some ⟨alike, rfl⟩
  · have looped : Option.Rel (Flagged Agree (ℕ → Bool))
        (Loop.forEach (SharedPager.unlockPass client (offset / pager.pageSize))
          (pager.pagesOf offset length) (pager, fun _ => false))
        (Loop.forEach (SharedPager.unlockPass client (offset / pager.pageSize))
          (pager.pagesOf offset length) (plain, fun _ => false)) := by
      apply Lockstep.forEach
      · intro number state state' related
        exact unlockPass related number
      · exact ⟨alike, rfl⟩
    apply Lockstep.map looped
    rintro ⟨worked, _⟩ ⟨worked', flags⟩ ⟨related, rfl⟩
    exact ⟨related, rfl⟩

theorem unlockedPass (alike : Alike Agree pager plain) (doUnlock : ℕ → Bool) (results : Callbacks)
    (number : ℕ) :
    Option.Rel (Alike Agree) (SharedPager.unlockedPass doUnlock results number pager)
      (SharedPager.unlockedPass doUnlock results number plain) := by
  unfold SharedPager.unlockedPass
  split_ifs
  · exact alike.plainPass number
  · exact .some alike

theorem serviceWritewait {entries : List WritewaitEntry} (alike : Alike Agree pager plain) :
    Flagged Agree (Option Thread) (SharedPager.serviceWritewait entries pager)
      (SharedPager.serviceWritewait entries plain) := by
  induction entries generalizing pager plain with
  | nil => exact ⟨alike, rfl⟩
  | cons current rest ih =>
      simp only [SharedPager.serviceWritewait, alike.pagesOf, alike.matchingPageCountOnWritewait,
        alike.dataFor]
      split_ifs
      · exact ih (alike.popFront current)
      · exact ⟨alike, rfl⟩

theorem afterWrites (alike : Alike Agree pager plain) (current : WritewaitEntry)
    (pageouts : List ℕ) (results : Callbacks) :
    Option.Rel (Flagged Agree (Option Thread)) (pager.afterWrites current pageouts results)
      (plain.afterWrites current pageouts results) := by
  simp only [SharedPager.afterWrites, alike.matchingPageCountOnWritewait, alike.dataFor]
  apply Lockstep.map (alike.forEach_flagPass _ pageouts _)
  rintro ⟨worked, _⟩ ⟨worked', doNotify⟩ ⟨related, rfl⟩
  dsimp only at related ⊢
  rw [related.notifyOnEvict, related.writewait]
  split_ifs
  · exact ⟨related, rfl⟩
  · exact (related.popFront current).serviceWritewait

theorem dataReturn (alike : Alike Agree pager plain) (client : MachPort) (offset : ℕ)
    (data : ℕ → ℕ) (length : ℕ) (dirty kernelCopy : Bool) (stale : ℕ → Bool) :
    Option.Rel (Flagged Agree (Option Thread))
      (pager.dataReturn client offset data length dirty kernelCopy stale)
      (plain.dataReturn client offset data length dirty kernelCopy stale) := by
  unfold SharedPager.dataReturn
  rw [alike.pageSize, alike.pagesOf]
  by_cases unaligned : length % pager.pageSize ≠ 0 ∨ offset % pager.pageSize ≠ 0
  · rw [if_pos unaligned, if_pos unaligned]
    exact .none
  · rw [if_neg unaligned, if_neg unaligned]
    apply Lockstep.bind (alike.forEach_flagPass _ (pager.pagesOf offset length) _)
    rintro ⟨marked, _⟩ ⟨marked', flags⟩ ⟨related, rfl⟩
    dsimp only at related ⊢
    have queued : Alike Agree
        { marked with writewait := marked.writewait ++ [⟨offset, data, length, kernelCopy⟩] }
        { marked' with writewait := marked'.writewait ++ [⟨offset, data, length, kernelCopy⟩] } := by
      rcases related with ⟨base, related⟩
      exact ⟨{ base with
        writewait := base.writewait ++ [⟨offset, data, length, kernelCopy⟩] }, related⟩
    rw [related.writewait] at queued ⊢
    split_ifs
    · exact .none
    · exact .some ⟨related, rfl⟩
    · exact .some queued.serviceWritewait
    · exact .some ⟨queued, rfl⟩
    · exact .some ⟨related, rfl⟩

theorem objectInit (alike : Alike Agree pager plain) (control : MachPort) (pagesize : ℕ) :
    Option.Rel (Flagged Agree (Option Thread)) (pager.objectInit control pagesize)
      (plain.objectInit control pagesize) := by
  rcases alike with ⟨base, related⟩
  let ready : SharedPager Unit :=
    ({ base with clients := base.clients.insert control } : SharedPager Unit).emit
      (.ready control base.mayCache base.copyStrategy)
  have outcome : ∀ {σ : Type} [Pagemap σ] (map : σ),
      (base.withMap map).objectInit control pagesize =
        if pagesize ≠ base.pageSize then none
        else if base.terminating then some (base.withMap map, none)
        else some (ready.withMap map, none) :=
    fun _ => rfl
  rw [outcome, outcome]
  split_ifs
  · exact .none
  · exact .some ⟨⟨base, related⟩, rfl⟩
  · exact .some ⟨⟨ready, related⟩, rfl⟩

theorem dropPass (alike : Alike Agree pager plain) (control : MachPort) (number : ℕ) :
    Alike Agree (pager.dropPass control number) (plain.dropPass control number) := by
  have loaded := alike.load number
  have worked : Alike Agree
      (if control ∈ (pager.read number).accesslist then
        ((pager.load number).putPage number
          (((pager.load number).page number).removeFromAccesslist control
            |>.setWriteAccessGranted false)).store number
      else pager)
      (if control ∈ (plain.read number).accesslist then
        ((plain.load number).putPage number
          (((plain.load number).page number).removeFromAccesslist control
            |>.setWriteAccessGranted false)).store number
      else plain) := by
    rw [alike.read, loaded.page]
    split_ifs
    · exact (loaded.putPage number _).store
    · exact alike
  unfold SharedPager.dropPass
  dsimp only
  generalize (if control ∈ (pager.read number).accesslist then _ else pager) = first at worked ⊢
  generalize (if control ∈ (plain.read number).accesslist then _ else plain) = second at worked ⊢
  rw [worked.read]
  split_ifs
  · exact (worked.load number).store
  · exact worked

theorem dropPages (alike : Alike Agree pager plain) (control : MachPort) :
    Alike Agree (pager.dropPages control) (plain.dropPages control) := by
  have same : Pagemap.size plain.pagemap = Pagemap.size pager.pagemap := by
    rcases alike with ⟨base, related⟩
    exact related.size
  have looped : Alike Agree
      ((List.range (Pagemap.size pager.pagemap)).foldl (SharedPager.dropPass control) pager)
      ((List.range (Pagemap.size pager.pagemap)).foldl (SharedPager.dropPass control) plain) :=
    Lockstep.foldl (fun related => related.dropPass control _) alike
  unfold SharedPager.dropPages
  rw [same]
  dsimp only
  generalize (List.range (Pagemap.size pager.pagemap)).foldl (SharedPager.dropPass control) pager =
    dropped at looped ⊢
  generalize (List.range (Pagemap.size pager.pagemap)).foldl (SharedPager.dropPass control) plain =
    dropped' at looped ⊢
  rcases looped with ⟨base, related⟩
  exact ⟨{ base with
    sent := base.sent ++
      (base.outstandingChangeRequests.toList.filter (·.client = control)).map
        fun request => .changeCompleted request.reply
    clients := base.clients.erase control }, related⟩

theorem dropLocks {keys : List LockKey} (alike : Alike Agree pager plain) (control : MachPort) :
    Option.Rel (Flagged Agree (Option Thread)) (SharedPager.dropLocks control keys pager)
      (SharedPager.dropLocks control keys plain) := by
  induction keys generalizing pager plain with
  | nil => exact .some ⟨alike.dropPages control, rfl⟩
  | cons key rest ih =>
      simp only [SharedPager.dropLocks]
      rw [alike.outstandingLocks]
      cases pager.outstandingLocks.find? key with
      | none => exact .none
      | some locks =>
          simp only [Option.bind_some]
          have stored := alike.storeLocks key (locks.erase control)
          split_ifs
          · apply Lockstep.bind (stored.internalLockCompleted control _ _ _)
            rintro ⟨completed, _⟩ ⟨completed', thread⟩ ⟨related, rfl⟩
            cases thread with
            | none => exact ih related
            | some thread => exact .some ⟨related, rfl⟩
          · exact ih stored

theorem resumeDrop (alike : Alike Agree pager plain) (drop : Option (MachPort × Option LockKey)) :
    Option.Rel (Flagged Agree (Option Thread)) (pager.resumeDrop drop) (plain.resumeDrop drop) := by
  rcases drop with _ | ⟨control, _ | key⟩
  · exact .some ⟨alike, rfl⟩
  · exact .some ⟨alike.dropPages control, rfl⟩
  · simp only [SharedPager.resumeDrop]
    rw [alike.outstandingLocks]
    split_ifs
    · exact alike.dropLocks control
    · exact .none

theorem lockObjectPass {state : SharedPager Interned × OrdSet MachPort}
    {state' : SharedPager InPlace × OrdSet MachPort} {only : Bool}
    (alike : Flagged Agree (OrdSet MachPort) state state') (number : ℕ) :
    Flagged Agree (OrdSet MachPort) (SharedPager.lockObjectPass only state number)
      (SharedPager.lockObjectPass only state' number) := by
  rcases state with ⟨pager, _⟩
  rcases state' with ⟨plain, clients⟩
  rcases alike with ⟨alike, rfl⟩
  have touched := alike.touch number
  refine ⟨touched, ?_⟩
  have same := touched.read number
  simp only [SharedPager.lockObjectPass, same]

theorem signal {offset length : ℕ} {shouldReturn : MemoryObjectReturn} {flush sync : Bool}
    (alike : Alike Agree pager plain) (client : MachPort) :
    Alike Agree (pager.signal offset length shouldReturn flush sync client)
      (plain.signal offset length shouldReturn flush sync client) := by
  have emitted := alike.emit
    (.lockRequest client offset length shouldReturn flush vmProtNoChange sync)
  unfold SharedPager.signal SharedPager.countLock
  dsimp only
  rw [emitted.outstandingLocks]
  split_ifs
  · exact emitted.setLocks _ _
  · exact emitted

theorem lockObject (alike : Alike Agree pager plain) (offset length : ℕ)
    (shouldReturn : MemoryObjectReturn) (flush sync : Bool) :
    Flagged Agree (Option Thread) (pager.lockObject offset length shouldReturn flush sync)
      (plain.lockObject offset length shouldReturn flush sync) := by
  have looped : Flagged Agree (OrdSet MachPort)
      ((pager.pagesOf offset length).foldl
        (SharedPager.lockObjectPass (!flush && shouldReturn ≠ .all)) (pager, ∅))
      ((pager.pagesOf offset length).foldl
        (SharedPager.lockObjectPass (!flush && shouldReturn ≠ .all)) (plain, ∅)) := by
    apply Lockstep.foldl
    · intro number state state' related
      exact lockObjectPass related number
    · exact ⟨alike, rfl⟩
  unfold SharedPager.lockObject
  rw [alike.pagesOf]
  generalize (pager.pagesOf offset length).foldl _ (pager, (∅ : OrdSet MachPort)) = state
    at looped ⊢
  generalize (pager.pagesOf offset length).foldl _ (plain, (∅ : OrdSet MachPort)) = state'
    at looped ⊢
  rcases state with ⟨touched, _⟩
  rcases state' with ⟨touched', clients⟩
  rcases looped with ⟨related, rfl⟩
  exact ⟨Lockstep.foldl (fun related => related.signal _) related, rfl⟩

theorem enter (alike : Alike Agree pager plain) (stale : ℕ → Bool) (input : Input)
    (known : ∀ client offset length access, input = .dataRequest client offset length access →
      pager.TakesKnown client offset) :
    Option.Rel (Flagged Agree (Option Thread)) (pager.enter stale input)
      (plain.enter stale input) := by
  cases input with
  | objectInit control pagesize => exact alike.objectInit control pagesize
  | dataRequest client offset length access =>
      exact alike.dataRequest client offset length access (known client offset length access rfl)
  | dataUnlock client offset length => exact alike.dataUnlock client offset length
  | dataReturn client offset data length dirty kernelCopy =>
      exact alike.dataReturn client offset data length dirty kernelCopy stale
  | lockCompleted client offset length => exact alike.lockCompleted client offset length
  | objectTerminate control =>
      simp only [SharedPager.enter, SharedPager.dropClient]
      rw [alike.outstandingLocks]
      exact alike.dropLocks control
  | deadName control =>
      simp only [SharedPager.enter, SharedPager.dropClient]
      rw [alike.outstandingLocks]
      exact alike.dropLocks control
  | lockObject offset length shouldReturn flush sync =>
      exact .some (alike.lockObject offset length shouldReturn flush sync)
  | shutdown =>
      rcases alike with ⟨base, related⟩
      exact .some ⟨⟨{ base with terminating := true }, related⟩, rfl⟩

theorem reenter (alike : Alike Agree pager plain) (results : Callbacks) (resume : Resume) :
    Option.Rel (Flagged Agree (Option Thread)) (pager.reenter results resume)
      (plain.reenter results resume) := by
  cases resume with
  | pagein number =>
      apply Lockstep.map (alike.plainPass number)
      intro _ _ related
      exact ⟨related, rfl⟩
  | lockCompleted pages operation drop =>
      have looped : Option.Rel (Alike Agree)
          (Loop.forEach (SharedPager.operationPass operation results) pages pager)
          (Loop.forEach (SharedPager.operationPass operation results) pages plain) :=
        Lockstep.forEach (fun related => related.operationPass operation results _) alike
      apply Lockstep.bind looped
      intro _ _ related
      exact related.resumeDrop drop
  | unlock pages doUnlock =>
      have looped : Option.Rel (Alike Agree)
          (Loop.forEach (SharedPager.unlockedPass doUnlock results) pages pager)
          (Loop.forEach (SharedPager.unlockedPass doUnlock results) pages plain) :=
        Lockstep.forEach (fun related => related.unlockedPass doUnlock results _) alike
      apply Lockstep.map looped
      intro _ _ related
      exact ⟨related, rfl⟩
  | written current pageouts => exact alike.afterWrites current pageouts results
  | notified current =>
      simp only [SharedPager.reenter]
      rw [alike.writewait]
      exact .some (alike.popFront current).serviceWritewait
  | locksAnswered offset length =>
      have same : plain.waitsForWrite offset length = pager.waitsForWrite offset length := by
        simp only [SharedPager.waitsForWrite, alike.writewait]
      simp only [SharedPager.reenter]
      rw [same]
      exact .some ⟨alike, rfl⟩
  | writesFinished => exact .some ⟨alike, rfl⟩

end Alike

namespace Threads

/-- The systems differ in how they keep the pagemap. -/
structure Together (system : Threads Interned) (plain : Threads InPlace) : Prop where
  pagers : Alike Agree system.pager plain.pager
  threads : plain.threads = system.threads

/-- The messages and the callbacks are the same, and so is every page. -/
structure LooksAlike (system : Threads Interned) (plain : Threads InPlace) : Prop where
  sent : plain.pager.sent = system.pager.sent
  threads : plain.threads = system.threads
  reads : ∀ number, plain.pager.read number = system.pager.read number

/-- No handler takes an error from `NEXTERROR` that would have to be stored. -/
def TakesKnown (system : Threads Interned) : Action → Prop
  | .start _ (.dataRequest client offset _ _) _ => system.pager.TakesKnown client offset
  | _ => True

namespace Together

variable {system : Threads Interned} {plain : Threads InPlace}

theorem looksAlike (together : Together system plain) : LooksAlike system plain :=
  ⟨together.pagers.sent, together.threads, together.pagers.read⟩

/-- A thread has run from one point where it does not have the lock to the next. -/
theorem setThread {ran : Option (SharedPager Interned × Option Thread)}
    {ran' : Option (SharedPager InPlace × Option Thread)} {threads : ℕ → Option Thread}
    (related : Option.Rel (Alike.Flagged Agree (Option Thread)) ran ran') (id : ℕ) :
    Option.Rel Together
      (ran.map fun (pager, thread) => (⟨pager, threads⟩ : Threads Interned).setThread id thread)
      (ran'.map fun (pager, thread) => (⟨pager, threads⟩ : Threads InPlace).setThread id thread) := by
  apply Lockstep.map related
  rintro ⟨pager, _⟩ ⟨pager', thread⟩ ⟨alike, rfl⟩
  exact ⟨alike, rfl⟩

theorem step {action : Action} (together : Together system plain)
    (known : TakesKnown system action) :
    Option.Rel Together (system.step action) (plain.step action) := by
  rcases system with ⟨pager, _⟩
  rcases plain with ⟨pager', threads⟩
  rcases together with ⟨alike, rfl⟩
  cases action with
  | start id input stale =>
      cases isThread : threads id with
      | some thread =>
          simp only [Threads.step, isThread]
          exact .none
      | none =>
          simp only [Threads.step, isThread]
          refine setThread (alike.enter stale input ?_) id
          rintro client offset length access rfl
          exact known
  | call id =>
      simp only [Threads.step]
      cases threads id with
      | none => exact .none
      | some thread =>
          rcases thread with ⟨_ | ⟨call, rest⟩, _ | busy, results, resume⟩
          · exact .none
          · exact .none
          · have sameEvent : pager'.pageEvent call.page call.event =
                pager.pageEvent call.page call.event := by
              rw [SharedPager.pageEvent, alike.offsetOf, alike.pageSize]
              rfl
            simp only [Option.bind_some, sameEvent]
            exact .some ⟨alike.emit _, rfl⟩
          · exact .none
  | finish id returned =>
      simp only [Threads.step]
      cases threads id with
      | none => exact .none
      | some thread =>
          rcases thread with ⟨calls, _ | busy, results, resume⟩
          · exact .none
          · exact .some ⟨alike, rfl⟩
  | resume id =>
      simp only [Threads.step]
      cases threads id with
      | none => exact .none
      | some thread =>
          simp only [Option.bind_some]
          split_ifs
          · exact setThread (alike.reenter _ _) id
          · exact .none
  | share entry =>
      rcases alike with ⟨base, related⟩
      exact .some ⟨⟨base, related.share entry⟩, rfl⟩

end Together

/-- A pager whose pagemap is a plain vector -/
def createPlain (pageSize : ℕ) (pageSize_pos : 0 < pageSize) (mayCache : Bool) (copyStrategy : ℕ)
    (notifyOnEvict : Bool) : Threads InPlace where
  pager := { pageSize, pageSize_pos, mayCache, copyStrategy, notifyOnEvict, pagemap := {} }

theorem Together.create (pageSize : ℕ) (pageSize_pos : 0 < pageSize) (mayCache : Bool)
    (copyStrategy : ℕ) (notifyOnEvict : Bool) (leftovers : ℕ → PagemapEntry) :
    Together (create pageSize pageSize_pos mayCache copyStrategy notifyOnEvict leftovers)
      (createPlain pageSize pageSize_pos mayCache copyStrategy notifyOnEvict) := by
  have empty : Agree { leftovers := leftovers } {} :=
    ⟨rfl, fun number => (Interned.read_of_length_le _ number (Nat.zero_le _)).symm⟩
  exact ⟨⟨{ pageSize, pageSize_pos, mayCache, copyStrategy, notifyOnEvict, pagemap := () }, empty⟩,
    rfl⟩

/--
However the threads interleave and whatever the moves leave behind, the shared pagemap is as good
as a plain vector where no error that is taken from `NEXTERROR` would have to be stored.
-/
theorem runs_looksAlike {pageSize : ℕ} {pageSize_pos : 0 < pageSize} {mayCache : Bool}
    {copyStrategy : ℕ} {notifyOnEvict : Bool} {leftovers : ℕ → PagemapEntry}
    {actions : List Action}
    (isAllowed : Transition.AllowedRun Threads.step TakesKnown actions
      (create pageSize pageSize_pos mayCache copyStrategy notifyOnEvict leftovers)) :
    Option.Rel LooksAlike
      (Transition.run Threads.step actions
        (create pageSize pageSize_pos mayCache copyStrategy notifyOnEvict leftovers))
      (Transition.run Threads.step actions
        (createPlain pageSize pageSize_pos mayCache copyStrategy notifyOnEvict)) := by
  have related : Option.Rel Together
      (Transition.run Threads.step actions
        (create pageSize pageSize_pos mayCache copyStrategy notifyOnEvict leftovers))
      (Transition.run Threads.step actions
        (createPlain pageSize pageSize_pos mayCache copyStrategy notifyOnEvict)) := by
    refine Lockstep.run ?_ isAllowed (Together.create ..)
    intro _ _ _ together known
    exact together.step known
  exact Lockstep.mono Together.looksAlike related

/-- A page is read, the filesystem refuses to unlock it, and it is requested again. -/
def unlockRefused : List Action :=
  [.start 0 (.dataRequest 1 0 4096 1) fun _ => false, .call 0, .finish 0 {}, .resume 0,
    .start 0 (.dataUnlock 1 0 4096) fun _ => false, .call 0, .finish 0 { unlock := 5 }, .resume 0,
    .start 0 (.lockCompleted 1 0 4096) fun _ => false, .resume 0,
    .start 0 (.dataRequest 1 0 4096 1) fun _ => false]

theorem unlockRefused_looksAlike : ∃ system plain,
    Transition.run Threads.step (unlockRefused.take 8)
        (create 4096 (by decide) true 0 false fun _ => { invalid := true }) = some system ∧
      Transition.run Threads.step (unlockRefused.take 8) (createPlain 4096 (by decide) true 0 false) =
        some plain ∧
      LooksAlike system plain := by
  have isAllowed : Transition.AllowedRun Threads.step TakesKnown (unlockRefused.take 8)
      (create 4096 (by decide) true 0 false fun _ => { invalid := true }) := by
    refine ⟨?_, fun _ _ => ⟨trivial, fun _ _ => ⟨trivial, fun _ _ => ⟨trivial, fun _ _ =>
      ⟨trivial, fun _ _ => ⟨trivial, fun _ _ => ⟨trivial, fun _ _ => ⟨trivial, fun _ _ =>
        trivial⟩⟩⟩⟩⟩⟩⟩⟩
    intro _ found rest isFound
    cases isFound
  have related := runs_looksAlike isAllowed
  have runs : (Transition.run Threads.step (unlockRefused.take 8)
      (create 4096 (by decide) true 0 false fun _ => { invalid := true })).isSome = true := rfl
  rcases Option.isSome_iff_exists.mp runs with ⟨system, finished⟩
  rw [finished] at related
  generalize Transition.run Threads.step (unlockRefused.take 8)
    (createPlain 4096 (by decide) true 0 false) = plain at related
  cases related with
  | some looksAlike => exact ⟨system, _, finished, rfl, looksAlike⟩

/-- The error is sent, but only the plain vector has it. -/
theorem unlockRefused_not_alike : ∃ system plain,
    Transition.run Threads.step unlockRefused
        (create 4096 (by decide) true 0 false fun _ => { invalid := true }) = some system ∧
      Transition.run Threads.step unlockRefused (createPlain 4096 (by decide) true 0 false) =
        some plain ∧
      ¬LooksAlike system plain := by
  have errors : (Transition.run Threads.step unlockRefused
      (create 4096 (by decide) true 0 false fun _ => { invalid := true })).map
        (fun system => (system.pager.read 0).error) = some 0 := rfl
  have errors' : (Transition.run Threads.step unlockRefused
      (createPlain 4096 (by decide) true 0 false)).map
        (fun plain => (plain.pager.read 0).error) = some 5 := rfl
  rcases Option.map_eq_some_iff.mp errors with ⟨system, finished, isError⟩
  rcases Option.map_eq_some_iff.mp errors' with ⟨plain, finished', isError'⟩
  refine ⟨system, plain, finished, finished', ?_⟩
  intro looksAlike
  rw [looksAlike.reads, isError] at isError'
  exact absurd isError' (by decide)

end Threads

end Hurd.Libpager
