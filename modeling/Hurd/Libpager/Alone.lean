import Hurd.Lib.Lockstep
import Hurd.Libpager.Projection
import Hurd.Libpager.Threads

/-!
# A handler that is not interrupted

`Pager.handle` runs a handler to its end in one go, on a pagemap that is a function; `Threads.step`
cuts it where it releases the pager lock, on the pagemap with its set of entries.  `Mirrors` connects
a pager of the one kind with one of the other, and `EndsAs` says what becomes of a thread that nobody
interrupts: its callbacks are made and answered, it takes the lock again, and so on until it ends.
-/

namespace Hurd.Libpager

/-- The offset of a page is less than 2^32. -/
def Pager.HasOffset (pager : Pager) (number : ℕ) : Prop := number * pager.pageSize < offsetRange

/-- A pager at both levels, where the running handler has done what comes after `past`. -/
structure Mirrors (past : List Event) (shared : SharedPager Interned) (pager : Pager) : Prop where
  pageSize : shared.pageSize = pager.pageSize
  mayCache : shared.mayCache = pager.mayCache
  copyStrategy : shared.copyStrategy = pager.copyStrategy
  notifyOnEvict : shared.notifyOnEvict = pager.notifyOnEvict
  terminating : shared.terminating = pager.terminating
  clients : shared.clients = pager.clients
  writewait : shared.writewait = pager.writewait
  nexterror : ∀ number, pager.HasOffset number →
    shared.nexterror (number * pager.pageSize) = pager.nexterror number
  outstandingLocks : shared.outstandingLocks = pager.outstandingLocks
  outstandingChangeRequests : shared.outstandingChangeRequests = pager.outstandingChangeRequests
  pagemap : ∀ number, shared.read number = pager.pagemap number
  sent : shared.sent = past ++ pager.sent

namespace Mirrors

variable {past : List Event} {shared : SharedPager Interned} {pager : Pager} {number : ℕ}

theorem offsetOf (mirrors : Mirrors past shared pager) (hasOffset : pager.HasOffset number) :
    shared.offsetOf number = number * pager.pageSize := by
  rw [SharedPager.offsetOf, mirrors.pageSize]
  exact Nat.mod_eq_of_lt hasOffset

theorem pageKey (mirrors : Mirrors past shared pager) (hasOffset : pager.HasOffset number) :
    shared.pageKey number = pager.pageKey number := by
  rw [SharedPager.pageKey, mirrors.offsetOf hasOffset, mirrors.pageSize, Pager.pageKey]

theorem pageEvent (mirrors : Mirrors past shared pager) (hasOffset : pager.HasOffset number)
    (event : PageEvent) : shared.pageEvent number event = .page number event := by
  rw [SharedPager.pageEvent, mirrors.offsetOf hasOffset, mirrors.pageSize,
    Nat.mul_div_cancel _ pager.pageSize_pos]

theorem pagesOf (mirrors : Mirrors past shared pager) (offset length : ℕ) :
    shared.pagesOf offset length = pager.pagesOf offset length := by
  rw [SharedPager.pagesOf, mirrors.pageSize, Pager.pagesOf]

theorem emit (mirrors : Mirrors past shared pager) (event : Event) :
    Mirrors past (shared.emit event) (pager.emit event) :=
  { mirrors with
    sent := by rw [SharedPager.emit, Pager.emit, mirrors.sent, List.append_assoc] }

theorem setLocks (mirrors : Mirrors past shared pager) (key : LockKey)
    (locks : Option (OrdMap MachPort OutstandingClientLock)) :
    Mirrors past (shared.setLocks key locks) (pager.setLocks key locks) := by
  refine { mirrors with outstandingLocks := ?_ }
  cases locks with
  | none => exact congrArg (fun map => map.erase key) mirrors.outstandingLocks
  | some locks => exact congrArg (fun map => map.insert key locks) mirrors.outstandingLocks

theorem touch (mirrors : Mirrors past shared pager) (number : ℕ) :
    Mirrors past (shared.touch number) pager :=
  { mirrors with
    pagemap := fun other => (Interned.read_touch _ _ _).trans (mirrors.pagemap other) }

end Mirrors

/-- What the routines for page `other` have done to the entry of page `number` -/
def Pager.putPage (pager : Pager) (number other : ℕ) (page : Page) : Pager :=
  { pager.setLocks (pager.pageKey other) page.locks with
    pagemap := Function.update pager.pagemap number page.entry
    nexterror := Function.update pager.nexterror other page.nexterror
    sent := pager.sent ++ page.sent.map (Event.page other) }

/-- The entry of page `number` is in `tmp_pagemap_entry`, and the rest is as in `Mirrors`. -/
def Works (past : List Event) (number : ℕ) (shared : SharedPager Interned) (pager : Pager) : Prop :=
  Mirrors past (shared.store number) pager

namespace Works

variable {past : List Event} {shared : SharedPager Interned} {pager : Pager} {number other : ℕ}

theorem read_store (shared : SharedPager Interned) (number other : ℕ) :
    (shared.store number).read other =
      if other = number then Pagemap.tmp shared.pagemap else shared.read other :=
  Interned.read_store _ _ _

theorem load (mirrors : Mirrors past shared pager) (number : ℕ) :
    Works past number (shared.load number) pager := by
  refine { mirrors with pagemap := ?_ }
  intro other
  have isTmp : Pagemap.tmp (shared.load number).pagemap = shared.read number :=
    Interned.tmp_load _ _
  have isRead : (shared.load number).read other = shared.read other := Interned.read_load _ _ _
  rw [read_store, isTmp, isRead]
  split_ifs with same
  · rw [same]
    exact mirrors.pagemap number
  · exact mirrors.pagemap other

theorem tmp (works : Works past number shared pager) :
    Pagemap.tmp shared.pagemap = pager.pagemap number := by
  rw [← works.pagemap number, read_store, if_pos rfl]

theorem page (works : Works past number shared pager) (hasOffset : pager.HasOffset other) :
    shared.page other = { pager.page other with entry := pager.pagemap number } := by
  have sameKey : shared.pageKey other = pager.pageKey other := works.pageKey hasOffset
  have sameOffset : shared.offsetOf other = other * pager.pageSize := works.offsetOf hasOffset
  have sameErrors : shared.nexterror (other * pager.pageSize) = pager.nexterror other :=
    works.nexterror other hasOffset
  have terminating : shared.terminating = pager.terminating := works.terminating
  have notifyOnEvict : shared.notifyOnEvict = pager.notifyOnEvict := works.notifyOnEvict
  have outstandingLocks : shared.outstandingLocks = pager.outstandingLocks := works.outstandingLocks
  rw [SharedPager.page, Pager.page, works.tmp, sameKey, sameOffset, sameErrors, terminating,
    notifyOnEvict, outstandingLocks]

theorem page_self (works : Works past number shared pager) (hasOffset : pager.HasOffset number) :
    shared.page number = pager.page number := by
  rw [works.page hasOffset]
  rfl

theorem putPage (works : Works past number shared pager) (hasOffset : pager.HasOffset other)
    (page : Page) : Works past number (shared.putPage other page) (pager.putPage number other page) := by
  have sameKey : shared.pageKey other = pager.pageKey other := works.pageKey hasOffset
  have sameOffset : shared.offsetOf other = other * pager.pageSize := works.offsetOf hasOffset
  have sameEvents : page.sent.map (shared.pageEvent other) = page.sent.map (.page other) :=
    List.map_congr_left fun event _ => works.pageEvent hasOffset event
  refine { works with nexterror := ?_, outstandingLocks := ?_, pagemap := ?_, sent := ?_ }
  · intro third thirdOffset
    have isShared : ((shared.putPage other page).store number).nexterror =
        Function.update shared.nexterror (other * pager.pageSize) page.nexterror := by
      rw [← sameOffset]
      rfl
    have isPager : (pager.putPage number other page).nexterror =
      Function.update pager.nexterror other page.nexterror := rfl
    have sameSize : (pager.putPage number other page).pageSize = pager.pageSize := rfl
    rw [isShared, isPager, sameSize]
    by_cases same : third = other
    · rw [same, Function.update_self, Function.update_self]
    · have different : third * pager.pageSize ≠ other * pager.pageSize :=
        fun isEqual => same (Nat.eq_of_mul_eq_mul_right pager.pageSize_pos isEqual)
      rw [Function.update_of_ne different, Function.update_of_ne same]
      exact works.nexterror third thirdOffset
  · have isSet := (works.setLocks (pager.pageKey other) page.locks).outstandingLocks
    rw [← sameKey] at isSet
    have isPager : (pager.putPage number other page).outstandingLocks =
      (pager.setLocks (shared.pageKey other) page.locks).outstandingLocks := by rw [sameKey]; rfl
    rw [isPager, ← isSet]
    rfl
  · intro third
    have isTmp : Pagemap.tmp (shared.putPage other page).pagemap = page.entry := rfl
    have isRead : (shared.putPage other page).read third = shared.read third := rfl
    have isPager : (pager.putPage number other page).pagemap =
      Function.update pager.pagemap number page.entry := rfl
    have before := works.pagemap third
    rw [read_store] at before
    rw [read_store, isTmp, isRead, isPager]
    split_ifs at before ⊢ with same
    · rw [same, Function.update_self]
    · rw [Function.update_of_ne same, before]
  · have isShared : ((shared.putPage other page).store number).sent =
      shared.sent ++ page.sent.map (shared.pageEvent other) := rfl
    have isSent : shared.sent = past ++ pager.sent := works.sent
    rw [isShared, sameEvents, isSent, List.append_assoc]
    rfl

theorem setPage (works : Works past number shared pager) (hasOffset : pager.HasOffset number)
    (page : Page) : Works past number (shared.putPage number page) (pager.setPage number page) :=
  works.putPage hasOffset page

end Works

/-- The states of two loops over the pages -/
structure Alongside (past : List Event) (size : ℕ) (shared : SharedPager Interned)
    (pager : Pager) : Prop where
  mirrors : Mirrors past shared pager
  pageSize : pager.pageSize = size

/-- The states of two loops over the pages that compute a flag for each of them -/
structure AlongsideFlags {Flag : Type} (past : List Event) (size : ℕ)
    (state : SharedPager Interned × Flag) (state' : Pager × Flag) : Prop
    extends Alongside past size state.1 state'.1 where
  flags : state.2 = state'.2

section Passes

variable {past : List Event} {shared : SharedPager Interned} {pager : Pager} {number size : ℕ}
  {Flag : Type}

theorem Mirrors.alongside (mirrors : Mirrors past shared pager) :
    Alongside past pager.pageSize shared pager :=
  ⟨mirrors, rfl⟩

theorem Alongside.onPage (alongside : Alongside past size shared pager)
    (hasOffset : number * size < offsetRange) (part : Page → Option (Page × Flag)) :
    Option.Rel (AlongsideFlags past size) (shared.onPage number part)
      ((part (pager.page number)).map fun result => (pager.setPage number result.1, result.2)) := by
  rcases alongside with ⟨mirrors, rfl⟩
  have works := Works.load mirrors number
  have isPage : (shared.load number).page number = pager.page number := works.page_self hasOffset
  rw [SharedPager.onPage, SharedPager.onTmp, isPage]
  cases part (pager.page number) with
  | none => exact .none
  | some result => exact .some ⟨⟨works.setPage hasOffset result.1, rfl⟩, rfl⟩

theorem Alongside.plainPass (alongside : Alongside past size shared pager)
    (hasOffset : number * size < offsetRange) (part : ℕ → Page → Option Page) :
    Option.Rel (Alongside past size) (SharedPager.plainPass part number shared)
      (pager.onPage number (part number)) := by
  have isMap : pager.onPage number (part number) =
      (((part number (pager.page number)).map fun page => (page, ())).map
        fun result => (pager.setPage number result.1, result.2)).map Prod.fst := by
    rw [Option.map_map, Option.map_map]
    rfl
  rw [isMap]
  exact Lockstep.map (alongside.onPage hasOffset _) fun related => related.toAlongside

theorem AlongsideFlags.flagPass {state : SharedPager Interned × (ℕ → Flag)}
    {state' : Pager × (ℕ → Flag)} (alongside : AlongsideFlags past size state state')
    (hasOffset : number * size < offsetRange) (part : ℕ → Page → Option (Page × Flag)) :
    Option.Rel (AlongsideFlags past size) (SharedPager.flagPass part number state)
      (Pager.onPageFlag state' number (part number)) := by
  have isMap : Pager.onPageFlag state' number (part number) =
      ((part number (state'.1.page number)).map
        fun result => (state'.1.setPage number result.1, result.2)).map
          fun result => (result.1, Function.update state'.2 number result.2) := by
    rw [Option.map_map]
    rfl
  rw [isMap]
  refine Lockstep.map (alongside.toAlongside.onPage hasOffset _) fun {result result'} related => ?_
  rcases result with ⟨pager, flag⟩
  rcases result' with ⟨pager', flag'⟩
  rcases related with ⟨related, rfl⟩
  exact ⟨related, by rw [alongside.flags]⟩

end Passes

namespace Pager

variable {pager : Pager} {number : ℕ}

def emitAll (pager : Pager) (events : List Event) : Pager :=
  { pager with sent := pager.sent ++ events }

@[simp]
theorem emitAll_nil (pager : Pager) : pager.emitAll [] = pager := by
  simp [emitAll]

theorem emitAll_append (pager : Pager) (first second : List Event) :
    pager.emitAll (first ++ second) = (pager.emitAll first).emitAll second := by
  simp [emitAll]

theorem setLocks_setLocks (pager : Pager) (key : LockKey)
    (first second : Option (OrdMap MachPort OutstandingClientLock)) :
    (pager.setLocks key first).setLocks key second = pager.setLocks key second := by
  have sameLocks : ((pager.setLocks key first).setLocks key second).outstandingLocks =
      (pager.setLocks key second).outstandingLocks := by
    apply OrdMap.eq_of_find?
    intro other
    simp only [find?_setLocks]
    split_ifs <;> rfl
  have isRecord : ∀ pager : Pager, ∀ locks, pager.setLocks key locks =
    { pager with outstandingLocks := (pager.setLocks key locks).outstandingLocks } := fun _ _ => rfl
  rw [isRecord, sameLocks]
  rfl

theorem setLocks_find? (pager : Pager) (key : LockKey) :
    pager.setLocks key (pager.outstandingLocks.find? key) = pager := by
  have sameLocks : (pager.setLocks key (pager.outstandingLocks.find? key)).outstandingLocks =
      pager.outstandingLocks := by
    apply OrdMap.eq_of_find?
    intro other
    rw [find?_setLocks]
    split_ifs with same
    · rw [same]
    · rfl
  have isRecord : pager.setLocks key (pager.outstandingLocks.find? key) =
    { pager with
      outstandingLocks :=
        (pager.setLocks key (pager.outstandingLocks.find? key)).outstandingLocks } := rfl
  rw [isRecord, sameLocks]

/-- A routine that only sends -/
theorem setPage_sent (pager : Pager) (number : ℕ) (events : List PageEvent) :
    pager.setPage number { pager.page number with sent := events } =
      pager.emitAll (events.map (.page number)) := by
  have sameLocks : pager.setLocks (pager.pageKey number) (pager.page number).locks = pager :=
    pager.setLocks_find? _
  have samePagemap : Function.update pager.pagemap number (pager.page number).entry =
    pager.pagemap := Function.update_eq_self ..
  have sameErrors : Function.update pager.nexterror number (pager.page number).nexterror =
    pager.nexterror := Function.update_eq_self ..
  rw [setPage]
  dsimp only
  rw [sameLocks, samePagemap, sameErrors]
  rfl

theorem setPage_page (pager : Pager) (number : ℕ) :
    pager.setPage number (pager.page number) = pager := by
  have isSent := pager.setPage_sent number []
  rw [List.map_nil, emitAll, List.append_nil] at isSent
  exact isSent

/-- Two routines for the same page, one after the other -/
theorem setPage_setPage (pager : Pager) (number : ℕ) (first second : Page) :
    (pager.setPage number first).setPage number second =
      pager.setPage number { second with sent := first.sent ++ second.sent } := by
  have sameLocks : ((pager.setPage number first).setPage number second).outstandingLocks =
      (pager.setPage number second).outstandingLocks := by
    have inTurn := congrArg outstandingLocks
      (pager.setLocks_setLocks (pager.pageKey number) first.locks second.locks)
    exact inTurn
  have isRecord : (pager.setPage number first).setPage number second =
      { pager with
        pagemap := Function.update (Function.update pager.pagemap number first.entry) number
          second.entry
        nexterror := Function.update (Function.update pager.nexterror number first.nexterror)
          number second.nexterror
        outstandingLocks := ((pager.setPage number first).setPage number second).outstandingLocks
        sent := pager.sent ++ first.sent.map (.page number) ++ second.sent.map (.page number) } :=
    rfl
  rw [isRecord, sameLocks, Function.update_idem, Function.update_idem, List.append_assoc,
    ← List.map_append]
  rfl

/-- A stable routine goes on with what another one has left. -/
theorem onPage_setPage {part : Page → Option Page} (stable : Page.Stable part) {page : Page}
    (constants : Page.SameConstants (pager.page number) page) :
    (pager.setPage number page).onPage number part = (part page).map (pager.setPage number) := by
  have isPage : (pager.setPage number page).page number = { page with sent := [] } := by
    have isView := pager.view_setPage_self number page
    rcases page with ⟨_, _, _, _, _, _⟩
    rcases constants with ⟨terminating, precious⟩
    cases terminating
    cases precious
    exact congrArg (fun seen : Page => { seen with sent := [] }) isView
  rw [Pager.onPage, isPage]
  conv_rhs => rw [page.eq_after_sent, stable.after]
  rw [Option.map_map]
  cases part { page with sent := [] } with
  | none => rfl
  | some next => exact congrArg some (pager.setPage_setPage number page next)

/-- A loop of routines that only send -/
theorem forEach_send {pages : List ℕ} {part : ℕ → Page → Option Page} {events : ℕ → List PageEvent}
    (sends : ∀ number ∈ pages, ∀ page : Page, page.precious = pager.notifyOnEvict →
      part number page = some { page with sent := page.sent ++ events number }) :
    Loop.forEach (fun number pager => pager.onPage number (part number)) pages pager =
      some (pager.emitAll (pages.flatMap fun number => (events number).map (.page number))) := by
  induction pages generalizing pager with
  | nil => simp [Loop.forEach, emitAll]
  | cons number rest ih =>
      have isPass : pager.onPage number (part number) =
          some (pager.emitAll ((events number).map (.page number))) := by
        rw [onPage, sends number List.mem_cons_self _ rfl]
        exact congrArg some (pager.setPage_sent number (events number))
      rw [Loop.forEach, isPass, Option.bind_some, List.flatMap_cons, emitAll_append]
      exact ih fun other otherMem => sends other (List.mem_cons_of_mem _ otherMem)

end Pager

namespace Call

/-- What a callback records when it is made -/
def emitted (call : Call) : Event := .page call.page call.event

/-- What a thread has when its callbacks have returned -/
def answers (results : Callbacks) (calls : List Call) : Callbacks :=
  calls.foldl (fun collected call => call.record (results call.page) collected) fun _ => {}

section Answers

variable {results : Callbacks} {calls : List Call} {number : ℕ}

theorem answers_append (results : Callbacks) (calls : List Call) (call : Call) :
    answers results (calls ++ [call]) = call.record (results call.page) (answers results calls) := by
  rw [answers, List.foldl_append]
  rfl

section Field

variable {α : Type} {field : PageCallbacks → α} {asks : Call → Prop} [DecidablePred asks]

theorem foldl_record {collected : Callbacks}
    (recorded : ∀ (call : Call) collected,
      field (call.record (results call.page) collected number) =
        if asks call then field (results number) else field (collected number))
    (answered : field (collected number) = field (results number) ∨ ∃ call ∈ calls, asks call) :
    field (calls.foldl (fun collected call => call.record (results call.page) collected)
      collected number) = field (results number) := by
  induction calls generalizing collected with
  | nil => simpa using answered
  | cons first rest ih =>
      refine ih ?_
      rw [recorded]
      split_ifs with asksFirst
      · exact .inl rfl
      · refine answered.imp_right fun isAsked => ?_
        rcases isAsked with ⟨call, isCall, asksCall⟩
        rcases List.mem_cons.mp isCall with rfl | isLater
        · exact absurd asksCall asksFirst
        · exact ⟨call, isLater, asksCall⟩

/-- An answer comes when its callback returns, and the other callbacks leave it. -/
theorem answers_field
    (recorded : ∀ (call : Call) collected,
      field (call.record (results call.page) collected number) =
        if asks call then field (results number) else field (collected number))
    {call : Call} (isCall : call ∈ calls) (asksCall : asks call) :
    field (answers results calls number) = field (results number) :=
  foldl_record recorded (.inr ⟨call, isCall, asksCall⟩)

end Field

theorem record_apply (call : Call) (returned : PageCallbacks) (collected : Callbacks) (number : ℕ) :
    call.record returned collected number =
      if call.page = number then
        match call with
        | .readPage number => { collected number with read := returned.read }
        | .unlockPage number => { collected number with unlock := returned.unlock }
        | .writePage number _ => { collected number with write := returned.write }
        | .notifyEvict number => collected number
      else collected number := by
  rw [if_congr eq_comm rfl rfl]
  exact Function.update_apply ..

theorem answers_read (isCall : .readPage number ∈ calls) :
    (answers results calls number).read = (results number).read := by
  have recorded : ∀ (call : Call) collected,
      (call.record (results call.page) collected number).read =
        if call = .readPage number then (results number).read else (collected number).read := by
    intro call collected
    rw [record_apply]
    cases call <;> simp only [page] <;> split_ifs <;> simp_all
  exact answers_field recorded isCall rfl

theorem answers_unlock (isCall : .unlockPage number ∈ calls) :
    (answers results calls number).unlock = (results number).unlock := by
  have recorded : ∀ (call : Call) collected,
      (call.record (results call.page) collected number).unlock =
        if call = .unlockPage number then (results number).unlock
        else (collected number).unlock := by
    intro call collected
    rw [record_apply]
    cases call <;> simp only [page] <;> split_ifs <;> simp_all
  exact answers_field recorded isCall rfl

theorem answers_write {data : ℕ} (isCall : .writePage number data ∈ calls) :
    (answers results calls number).write = (results number).write := by
  let isWrite : Call → Bool := fun call =>
    match call with
    | .writePage other _ => other = number
    | _ => false
  have recorded : ∀ (call : Call) collected,
      (call.record (results call.page) collected number).write =
        if isWrite call then (results number).write else (collected number).write := by
    intro call collected
    rw [record_apply]
    cases call <;> simp only [page, isWrite] <;> split_ifs <;> simp_all
  exact answers_field recorded isCall (by simp [isWrite])

end Answers

end Call

end Hurd.Libpager
