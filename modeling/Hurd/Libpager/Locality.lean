import Hurd.Libpager.Frame
import Hurd.Libpager.Handlers

/-!
# What a page sees of a handler

`view pager number` is the part of the pager that the routines for page `number` can reach,
with the messages the running handler has sent for that page.  A pass of a loop over the
pages of a message changes the view of its own page only, so a whole loop runs its part once
on the view of each page: `forEach_onPage` and `forEach_onPageFlag`.
-/

namespace Hurd.Libpager

/-- The client of a message that is not about a single page. -/
def Event.direct? : Event → Option MachPort
  | .lockRequest client .. => some client
  | .ready client .. => some client
  | .page .. => none
  | .changeCompleted _ => none
  | .wakeLockWaiters _ => none
  | .wakeWriteWaiters .. => none

namespace Pager

/-- The messages and callbacks for a page among all that a handler has done. -/
def eventsOf (number : ℕ) (sent : List Event) : List PageEvent :=
  sent.filterMap fun
    | .page other event => if other = number then some event else none
    | _ => none

/-- What page `number` has seen of the running handler. -/
def view (pager : Pager) (number : ℕ) : Page :=
  { pager.page number with sent := eventsOf number pager.sent }

theorem eventsOf_append (number : ℕ) (first second : List Event) :
    eventsOf number (first ++ second) = eventsOf number first ++ eventsOf number second :=
  List.filterMap_append

/-- The events of a page are those sent for it. -/
theorem mem_eventsOf {number : ℕ} {event : PageEvent} {sent : List Event} :
    event ∈ eventsOf number sent ↔ Event.page number event ∈ sent := by
  rw [eventsOf, List.mem_filterMap]
  constructor
  · rintro ⟨other, otherMem, selected⟩
    cases other with
    | page otherNumber otherEvent =>
        simp only [Option.ite_none_right_eq_some, Option.some_inj] at selected
        rcases selected with ⟨rfl, rfl⟩
        exact otherMem
    | lockRequest => cases selected
    | ready => cases selected
    | changeCompleted => cases selected
    | wakeLockWaiters => cases selected
    | wakeWriteWaiters => cases selected
  · intro eventMem
    exact ⟨_, eventMem, if_pos rfl⟩

theorem eventsOf_page_self (number : ℕ) (events : List PageEvent) :
    eventsOf number (events.map (Event.page number)) = events := by
  induction events with
  | nil => rfl
  | cons event rest ih => simp [eventsOf]

theorem eventsOf_page_of_ne {number other : ℕ} (different : other ≠ number)
    (events : List PageEvent) : eventsOf number (events.map (Event.page other)) = [] := by
  induction events with
  | nil => rfl
  | cons event rest ih => simp [eventsOf, different]

/-- An event that is not about a page changes no view. -/
theorem view_emit (pager : Pager) (number : ℕ) {event : Event}
    (notPage : eventsOf number [event] = []) :
    (pager.emit event).view number = pager.view number := by
  rw [view, view, emit, eventsOf_append, notPage, List.append_nil]
  rfl

theorem pageKey_injective (pager : Pager) {number other : ℕ}
    (same : pager.pageKey number = pager.pageKey other) : number = other := by
  have offsets : number * pager.pageSize = other * pager.pageSize :=
    congrArg (fun key : LockKey => (ofLex key).1) same
  exact Nat.eq_of_mul_eq_mul_right pager.pageSize_pos offsets

section SetLocks

variable (pager : Pager) (key : LockKey) (locks : Option (OrdMap MachPort OutstandingClientLock))

theorem find?_setLocks (other : LockKey) :
    (pager.setLocks key locks).outstandingLocks.find? other =
      if other = key then locks else pager.outstandingLocks.find? other := by
  cases locks <;> simp [setLocks]

theorem view_setLocks_self {number : ℕ} (keyEq : key = pager.pageKey number) :
    (pager.setLocks key locks).view number = { pager.view number with locks := locks } := by
  have found := pager.find?_setLocks key locks (pager.pageKey number)
  rw [if_pos keyEq.symm] at found
  simp only [view, page]
  congr 1

theorem view_setLocks_of_ne {number : ℕ} (keyNe : key ≠ pager.pageKey number) :
    (pager.setLocks key locks).view number = pager.view number := by
  have found := pager.find?_setLocks key locks (pager.pageKey number)
  rw [if_neg (Ne.symm keyNe)] at found
  simp only [view, page]
  congr 1

end SetLocks

/-- What no handler of a message changes. -/
structure SameCore (pager next : Pager) : Prop where
  pageSize : next.pageSize = pager.pageSize
  terminating : next.terminating = pager.terminating
  notifyOnEvict : next.notifyOnEvict = pager.notifyOnEvict
  clients : next.clients = pager.clients
  writewait : next.writewait = pager.writewait

/-- What the routines for the pages leave alone. -/
structure SameRest (pager next : Pager) : Prop extends SameCore pager next where
  locks : ∀ key, (∀ number, key ≠ pager.pageKey number) →
    next.outstandingLocks.find? key = pager.outstandingLocks.find? key
  told : ∀ event ∈ next.sent, event ∈ pager.sent ∨ event.direct? = none

variable {pager middle next : Pager}

theorem SameCore.refl (pager : Pager) : SameCore pager pager :=
  ⟨rfl, rfl, rfl, rfl, rfl⟩

theorem SameCore.trans (first : SameCore pager middle) (second : SameCore middle next) :
    SameCore pager next where
  pageSize := second.pageSize.trans first.pageSize
  terminating := second.terminating.trans first.terminating
  notifyOnEvict := second.notifyOnEvict.trans first.notifyOnEvict
  clients := second.clients.trans first.clients
  writewait := second.writewait.trans first.writewait

theorem SameCore.pageKey (same : SameCore pager next) (number : ℕ) :
    next.pageKey number = pager.pageKey number := by
  rw [Pager.pageKey, Pager.pageKey, same.pageSize]

theorem SameRest.refl (pager : Pager) : SameRest pager pager :=
  ⟨.refl pager, fun _ _ => rfl, fun _ => Or.inl⟩

theorem SameRest.trans (first : SameRest pager middle) (second : SameRest middle next) :
    SameRest pager next where
  toSameCore := first.toSameCore.trans second.toSameCore
  locks key notPage := by
    rw [second.locks key fun number => by rw [first.pageKey]; exact notPage number,
      first.locks key notPage]
  told event eventMem := by
    rcases second.told event eventMem with before | direct
    · exact first.told event before
    · exact Or.inr direct

section SetPage

variable (pager) (number : ℕ) (page : Page)

/-- What is stored in a page is seen there. -/
theorem view_setPage_self :
    (pager.setPage number page).view number = (pager.view number).rebase page := by
  have found := pager.find?_setLocks (pager.pageKey number) page.locks (pager.pageKey number)
  rw [if_pos rfl] at found
  simp only [view, Pager.page, setPage, Page.rebase, eventsOf_append, eventsOf_page_self,
    Function.update_self]
  congr 1

/-- No other page sees it. -/
theorem view_setPage_of_ne {other : ℕ} (different : other ≠ number) :
    (pager.setPage number page).view other = pager.view other := by
  have keyNe : pager.pageKey other ≠ pager.pageKey number :=
    fun same => different (pager.pageKey_injective same)
  have found := pager.find?_setLocks (pager.pageKey number) page.locks (pager.pageKey other)
  rw [if_neg keyNe] at found
  simp only [view, Pager.page, setPage, eventsOf_append,
    eventsOf_page_of_ne (Ne.symm different), List.append_nil,
    Function.update_of_ne different]
  congr 1

theorem sameRest_setPage : SameRest pager (pager.setPage number page) where
  toSameCore := ⟨rfl, rfl, rfl, rfl, rfl⟩
  locks key notPage := by
    have found := pager.find?_setLocks (pager.pageKey number) page.locks key
    rwa [if_neg (notPage number)] at found
  told event eventMem := by
    rcases List.mem_append.mp eventMem with before | now
    · exact Or.inl before
    · rcases List.mem_map.mp now with ⟨pageEvent, _, rfl⟩
      exact Or.inr rfl

end SetPage

section Loops

variable {Flag : Type}

/-- A pass over a page is local to it. -/
theorem onPage_local (number : ℕ) (part : Page → Option Page) :
    Loop.LocalTo view (fun pager => pager.onPage number part) number (·.andThen part) where
  own := by
    intro pager next done
    rcases Option.map_eq_some_iff.mp done with ⟨page, partDone, rfl⟩
    rw [view_setPage_self, Page.andThen]
    exact congrArg (Option.map _) partDone
  frame := by
    intro pager next other done different
    rcases Option.map_eq_some_iff.mp done with ⟨page, _, rfl⟩
    exact view_setPage_of_ne pager number page different
  total := by
    intro pager seen done
    rcases Option.map_eq_some_iff.mp done with ⟨page, partDone, _⟩
    exact ⟨pager.setPage number page, congrArg (Option.map _) partDone⟩

/-- What a page has seen of a loop that computes flags, and its flag. -/
def viewFlag (state : Pager × (ℕ → Flag)) (number : ℕ) : Page × Flag :=
  (state.1.view number, state.2 number)

/-- So is one that raises the flag of the page. -/
theorem onPageFlag_local (number : ℕ) (part : Page → Option (Page × Flag)) :
    Loop.LocalTo viewFlag (fun state => onPageFlag state number part) number
      (fun seen => seen.1.andThenFlag part) where
  own := by
    intro state next done
    rcases Option.map_eq_some_iff.mp done with ⟨⟨page, flag⟩, partDone, rfl⟩
    simp only [viewFlag, view_setPage_self, Function.update_self, Page.andThenFlag]
    exact congrArg (Option.map _) partDone
  frame := by
    intro state next other done different
    rcases Option.map_eq_some_iff.mp done with ⟨⟨page, flag⟩, _, rfl⟩
    simp only [viewFlag, view_setPage_of_ne state.1 number page different,
      Function.update_of_ne different]
  total := by
    intro state seen done
    rcases Option.map_eq_some_iff.mp done with ⟨⟨page, flag⟩, partDone, _⟩
    exact ⟨_, congrArg (Option.map _) partDone⟩

theorem sameRest_onPage {number : ℕ} {part : Page → Option Page}
    (done : pager.onPage number part = some next) : SameRest pager next := by
  rcases Option.map_eq_some_iff.mp done with ⟨page, _, rfl⟩
  exact pager.sameRest_setPage number page

theorem sameRest_onPageFlag {state next : Pager × (ℕ → Flag)} {number : ℕ}
    {part : Page → Option (Page × Flag)} (done : onPageFlag state number part = some next) :
    SameRest state.1 next.1 := by
  rcases Option.map_eq_some_iff.mp done with ⟨⟨page, flag⟩, _, rfl⟩
  exact state.1.sameRest_setPage number page

/-- A loop over distinct pages runs its part once on each of them. -/
theorem forEach_onPage {pages : List ℕ} (distinct : pages.Nodup) {part : ℕ → Page → Option Page}
    (stable : ∀ number, Page.Stable (part number))
    (done : Loop.forEach (fun number pager => pager.onPage number (part number)) pages pager =
      some next) :
    SameRest pager next ∧
      (∀ number ∈ pages, part number (pager.view number) = some (next.view number)) ∧
      ∀ other ∉ pages, next.view other = pager.view other := by
  rcases Loop.forEach_view distinct
    (fun number _ => onPage_local number (part number)) done with ⟨own, frame⟩
  refine ⟨Loop.forEach_relation SameRest SameRest.refl SameRest.trans sameRest_onPage done, ?_, frame⟩
  intro number numberMem
  rw [← (stable number).andThen_eq]
  exact own number numberMem

/-- `forEach_onPage` for a loop that computes flags. -/
theorem forEach_onPageFlag {pages : List ℕ} (distinct : pages.Nodup)
    {part : ℕ → Page → Option (Page × Flag)} (stable : ∀ number, Page.StableFlag (part number))
    {state next : Pager × (ℕ → Flag)}
    (done : Loop.forEach (fun number state => onPageFlag state number (part number)) pages state =
      some next) :
    SameRest state.1 next.1 ∧
      (∀ number ∈ pages,
        part number (state.1.view number) = some (next.1.view number, next.2 number)) ∧
      ∀ other ∉ pages, next.1.view other = state.1.view other ∧ next.2 other = state.2 other := by
  rcases Loop.forEach_view distinct
    (fun number _ => onPageFlag_local number (part number)) done with ⟨own, frame⟩
  refine ⟨Loop.forEach_relation (fun state next => SameRest state.1 next.1)
    (fun state => SameRest.refl state.1) SameRest.trans sameRest_onPageFlag done, ?_, ?_⟩
  · intro number numberMem
    rw [← (stable number).andThenFlag_eq]
    exact own number numberMem
  · intro other otherNotMem
    have same := frame other otherNotMem
    simp only [viewFlag, Prod.mk.injEq] at same
    exact same

end Loops

end Pager

end Hurd.Libpager
