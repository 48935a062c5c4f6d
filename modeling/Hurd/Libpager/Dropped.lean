import Hurd.Libpager.Projection

/-!
# What a dropped client leaves behind

`drop_client` is to remove a client from every structure of the pager.  It erases the client
from a copy of WAITLIST and does not look at NEXTERROR, so a client that waits for a page or
is owed an error stays there.  A waiting client goes away only where the page is brought in
for it on the way, and only when nobody is left waiting then.  `noTrace_drop_iff` says this
exactly; a client that has left no trace is never sent anything again.
-/

namespace Hurd.Libpager

namespace Page

/-- A client that the page knows nothing of. -/
structure Traceless (page : Page) (control : MachPort) : Prop where
  notListed : control ∉ page.entry.accesslist
  notWaiting : control ∉ waitingClients page.entry.waitlist
  notLocked : page.lock? control = none
  noError : ∀ entry ∈ page.nexterror, entry.client ≠ control

/-- What `drop_client` leaves of a client on a page apart from ACCESSLIST. -/
def LeftBehind (page : Page) (control : MachPort) : Prop :=
  control ∈ waitingClients page.entry.waitlist ∨ page.lock? control ≠ none ∨
    ∃ entry ∈ page.nexterror, entry.client = control

/--
The page is brought in, or refused, for the waiting clients when the client is dropped, and
nobody waits for it then.
-/
def EmptiesWaitlist (page : Page) (control : MachPort) (results : PageCallbacks) : Prop :=
  page.terminating = false ∧
    (∃ record, page.lock? control = some record ∧ record.internalLockOutstanding = true) ∧
    control ∈ page.entry.accesslist ∧ (page.entry.accesslist.erase control).isEmpty = true ∧
    (page.entry.invalid = true ∨ results.read.error ≠ kernSuccess ∨
      ∀ first rest, page.entry.waitlist = first :: rest →
        leftWaiting (!results.read.writeLock) first rest = [])

/-- The client is owed no error by the page, and it does not wait for it in vain. -/
def LeavesNoTrace (page : Page) (control : MachPort) (results : PageCallbacks) : Prop :=
  (∀ entry ∈ page.nexterror, entry.client ≠ control) ∧
    (control ∈ waitingClients page.entry.waitlist → page.EmptiesWaitlist control results)

variable {page next : Page} {control : MachPort} {results : PageCallbacks}

theorem traceless_dropClient_iff (page : Page) (control : MachPort) :
    (page.dropClient control).Traceless control ↔ ¬page.LeftBehind control := by
  have sameRest : (page.dropClient control).entry.waitlist = page.entry.waitlist ∧
      (page.dropClient control).lock? control = page.lock? control ∧
      (page.dropClient control).nexterror = page.nexterror := by
    unfold dropClient
    split_ifs <;> exact ⟨rfl, rfl, rfl⟩
  have notListed : control ∉ (page.dropClient control).entry.accesslist := by
    unfold dropClient
    split_ifs with listed
    · exact fun stillListed => (OrdSet.mem_erase.mp stillListed).2 rfl
    · exact listed
  rcases sameRest with ⟨sameWaitlist, sameLock, sameErrors⟩
  constructor
  · rintro ⟨_, notWaiting, notLocked, noError⟩ (waiting | locked | ⟨entry, entryMem, isControl⟩)
    · rw [sameWaitlist] at notWaiting
      exact notWaiting waiting
    · rw [sameLock] at notLocked
      exact locked notLocked
    · rw [sameErrors] at noError
      exact noError entry entryMem isControl
  · intro nothing
    rw [LeftBehind, not_or, not_or, not_not] at nothing
    rcases nothing with ⟨notWaiting, notLocked, noError⟩
    refine ⟨notListed, sameWaitlist ▸ notWaiting, sameLock.trans notLocked, ?_⟩
    rw [sameErrors]
    exact fun entry entryMem isControl => noError ⟨entry, entryMem, isControl⟩

/-- A client that `drop_client` does not serve waits on. -/
theorem leftBehind_iff_of_same (sameWaiting : control ∈ waitingClients next.entry.waitlist ↔
      control ∈ waitingClients page.entry.waitlist)
    (notLocked : next.lock? control = none)
    (sameErrors : (∃ entry ∈ next.nexterror, entry.client = control) ↔
      ∃ entry ∈ page.nexterror, entry.client = control)
    (notEmptied : control ∈ waitingClients page.entry.waitlist →
      ¬page.EmptiesWaitlist control results) :
    ¬next.LeftBehind control ↔ page.LeavesNoTrace control results := by
  rw [LeftBehind, LeavesNoTrace, sameWaiting, sameErrors]
  simp only [notLocked, ne_eq, not_true_eq_false, false_or, not_or, not_exists, not_and]
  constructor
  · rintro ⟨notWaiting, noError⟩
    exact ⟨noError, fun waiting => absurd waiting notWaiting⟩
  · rintro ⟨noError, emptied⟩
    exact ⟨fun waiting => notEmptied waiting (emptied waiting), noError⟩

/-- A page whose WAITLIST `drop_client` empties keeps nothing but errors of the client. -/
theorem leftBehind_iff_of_nil (noneWaiting : next.entry.waitlist = [])
    (notLocked : next.lock? control = none) (sameErrors : next.nexterror = page.nexterror)
    (emptied : page.EmptiesWaitlist control results) :
    ¬next.LeftBehind control ↔ page.LeavesNoTrace control results := by
  rw [LeftBehind, LeavesNoTrace, noneWaiting, sameErrors]
  simp only [notLocked, waitingClients, List.map_nil, List.not_mem_nil, ne_eq,
    not_true_eq_false, false_or, not_exists, not_and]
  exact ⟨fun noError => ⟨noError, fun _ => emptied⟩, fun noTrace => noTrace.1⟩

theorem mem_waitingClients_iff (allowWriteAccess : Bool) (control : MachPort)
    {first : WaitlistClient} {rest : List WaitlistClient}
    (waiting : page.entry.waitlist = first :: rest) :
    control ∈ waitingClients page.entry.waitlist ↔
      control ∈ servedBatch allowWriteAccess first rest ∨
        control ∈ waitingClients (leftWaiting allowWriteAccess first rest) := by
  rw [waiting, ← servedBatch_append_leftWaiting allowWriteAccess first rest, List.mem_append]

/-- Serving a page leaves a client that waits on, or that gets a flush with the page. -/
theorem leftBehind_serveFirst_iff (data : ℕ) (deallocate : Bool) (first : WaitlistClient)
    (rest : List WaitlistClient) (allowWriteAccess : Bool) (notLocked : page.lock? control = none)
    (notListed : control ∉ page.entry.accesslist) :
    (page.serveFirst data allowWriteAccess deallocate first rest).flushForWaiting.LeftBehind
        control ↔
      control ∈ waitingClients (leftWaiting allowWriteAccess first rest) ∨
        (leftWaiting allowWriteAccess first rest ≠ [] ∧
          control ∈ servedBatch allowWriteAccess first rest) ∨
        ∃ entry ∈ page.nexterror, entry.client = control := by
  rcases serveFirst_frame data deallocate first rest page allowWriteAccess with
    ⟨sameLocks, sameErrors, -⟩
  have unlocked :
      (page.serveFirst data allowWriteAccess deallocate first rest).lock? control = none := by
    rw [lock?, sameLocks]
    exact notLocked
  have listed := mem_serveFirst_accesslist data deallocate first rest page allowWriteAccess control
  rw [LeftBehind, flushForWaiting_lock?, unlocked, flushForWaiting_entry, serveFirst_waitlist,
    flushForWaiting_nexterror, sameErrors]
  simp [listed, notListed]

/-- The page is brought in for the waiting clients when the last client is dropped. -/
theorem leftBehind_pagein_iff (isInternal : ∃ record, page.lock? control = some record ∧
      record.internalLockOutstanding = true) (running : page.terminating = false)
    (listed : control ∈ page.entry.accesslist)
    (lastOne : (page.entry.accesslist.erase control).isEmpty = true)
    (valid : page.entry.invalid = false)
    (finished : (((page.forget control).removeFromAccesslist control).send
      .readPage).finishPagein results.read = some next) :
    ¬next.LeftBehind control ↔ page.LeavesNoTrace control results := by
  have forgotten : ∀ error, ((((page.forget control).removeFromAccesslist control).send
      .readPage).setError error).lock? control = none := by
    intro error
    have gone := page.forget_lock? control control
    rwa [if_pos rfl] at gone
  have nobody : ∀ client, client ∉ page.entry.accesslist.erase control :=
    OrdSet.isEmpty_iff.mp lastOne
  rcases finishPagein_cases finished with ⟨succeeded, served⟩ | ⟨failed, rfl⟩
  · rcases serviceWaitlist_cases served with ⟨ended, _⟩ | ⟨first, rest, _, waiting, rfl⟩
    · rw [show page.terminating = true from ended] at running
      cases running
    have isWaiting : page.entry.waitlist = first :: rest := waiting
    have emptied : page.EmptiesWaitlist control results ↔
        leftWaiting (!results.read.writeLock) first rest = [] := by
      constructor
      · rintro ⟨_, _, _, _, isInvalid | failed | nobodyLeft⟩
        · rw [valid] at isInvalid
          cases isInvalid
        · exact absurd succeeded failed
        · exact nobodyLeft first rest isWaiting
      · intro nobodyLeft
        refine ⟨running, isInternal, listed, lastOne, Or.inr (Or.inr ?_)⟩
        intro head tail waitlistEq
        rw [isWaiting] at waitlistEq
        cases waitlistEq
        exact nobodyLeft
    have left := leftBehind_serveFirst_iff results.read.buffer true first rest
      (!results.read.writeLock) (forgotten kernSuccess) (nobody control)
    rw [left, LeavesNoTrace, emptied,
      mem_waitingClients_iff (!results.read.writeLock) control isWaiting]
    constructor
    · intro nothing
      rw [not_or, not_or] at nothing
      rcases nothing with ⟨notLeft, notFlushed, noError⟩
      refine ⟨fun entry entryMem isControl => noError ⟨entry, entryMem, isControl⟩, ?_⟩
      intro waits
      by_contra someLeft
      exact notFlushed ⟨someLeft, waits.resolve_right notLeft⟩
    · rintro ⟨noError, nobodyLeft⟩ (stillWaits | ⟨someLeft, wasServed⟩ |
        ⟨entry, entryMem, isControl⟩)
      · rw [nobodyLeft (Or.inr stillWaits)] at stillWaits
        cases stillWaits
      · exact someLeft (nobodyLeft (Or.inl wasServed))
      · exact noError entry entryMem isControl
  · have disjoint := sendErrorToWaitlist_of_disjoint
      ((((page.forget control).removeFromAccesslist control).send .readPage).setError
        results.read.error) (fun client _ => nobody client)
    refine leftBehind_iff_of_nil ?_ ?_ ?_ ?_
    · rw [sendErrorToWaitlist_entry]
    · rw [lock?, disjoint.1]
      exact forgotten results.read.error
    · exact disjoint.2
    · exact ⟨running, isInternal, listed, lastOne, Or.inr (Or.inl failed)⟩

/-- The page is unlocked for another client when the client is dropped. -/
theorem leftBehind_unlock_iff {first : WaitlistClient} {rest : List WaitlistClient}
    (waiting : page.entry.waitlist = first :: rest)
    (firstListed : first.client ∈ page.entry.accesslist.erase control)
    (finished : (((page.forget control).removeFromAccesslist control).send
      .unlockPage).finalizeUnlock results.unlock = some next) :
    ¬next.LeftBehind control ↔ page.LeavesNoTrace control results := by
  have different : first.client ≠ control := (OrdSet.mem_erase.mp firstListed).2
  have forgotten : (page.forget control).lock? control = none := by
    rw [forget_lock?, if_pos rfl]
  have notFlushed : control ∉ [first.client] := fun flushed =>
    different (List.mem_singleton.mp flushed).symm
  have sameWaiting : control ∈ waitingClients rest ↔
      control ∈ waitingClients page.entry.waitlist := by
    simp [waiting, waitingClients, Ne.symm different]
  have notEmptied : control ∈ waitingClients page.entry.waitlist →
      ¬page.EmptiesWaitlist control results := by
    rintro _ ⟨_, _, _, lastOne, _⟩
    exact OrdSet.isEmpty_iff.mp lastOne first.client firstListed
  cases finalizeUnlock_cases finished with
  | granted head tail headWaits _ nextEq =>
      cases waiting.symm.trans headWaits
      refine leftBehind_iff_of_same ?_ ?_ ?_ notEmptied
      · rw [nextEq, flushEach_entry]
        exact sameWaiting
      · rw [nextEq, flushEach_lock?, if_neg]
        · exact forgotten
        · split_ifs
          · exact List.not_mem_nil
          · exact notFlushed
      · rw [nextEq, flushEach_nexterror]
        rfl
  | failed head tail headWaits _ nextEq =>
      cases waiting.symm.trans headWaits
      refine leftBehind_iff_of_same ?_ ?_ ?_ notEmptied
      · rw [nextEq]
        simpa [setWaitlist] using sameWaiting
      · have locked := flushEach_lock? ((((page.forget control).removeFromAccesslist
          control).send .unlockPage).setWaitlist rest) [first.client] control
        rw [if_neg notFlushed] at locked
        rw [nextEq]
        exact locked.trans forgotten
      · rw [nextEq]
        simp [different, removeFromAccesslist, send, forget, storeLocks]

theorem leftBehind_dropLocks_iff (dropped : page.dropLocks control results = some next) :
    ¬next.LeftBehind control ↔ page.LeavesNoTrace control results := by
  have forgotten : (page.forget control).lock? control = none := by
    rw [forget_lock?, if_pos rfl]
  rcases dropLocks_cases dropped with ⟨record, found, isInternal, finished⟩ | ⟨external, rfl⟩
  · cases internalLockCompleted_cases finished with
    | terminating ended nextEq =>
        rw [nextEq]
        refine leftBehind_iff_of_same Iff.rfl forgotten Iff.rfl ?_
        rintro _ ⟨running, _⟩
        rw [show page.terminating = true from ended] at running
        cases running
    | idle _ _ nothingToDo nextEq =>
        rw [nextEq]
        refine leftBehind_iff_of_same Iff.rfl forgotten Iff.rfl ?_
        rintro waiting ⟨_, _, listed, _⟩
        rw [show page.entry.waitlist = [] from nothingToDo listed] at waiting
        cases waiting
    | others _ _ _ _ othersLeft nextEq =>
        rw [nextEq]
        refine leftBehind_iff_of_same Iff.rfl forgotten Iff.rfl ?_
        rintro _ ⟨_, _, _, lastOne, _⟩
        rw [show (page.entry.accesslist.erase control).isEmpty = false from othersLeft] at lastOne
        cases lastOne
    | refuse running _ listed _ lastOne invalid nextEq =>
        have disjoint := sendErrorToWaitlist_of_disjoint
          ((page.forget control).removeFromAccesslist control)
          fun client _ => OrdSet.isEmpty_iff.mp lastOne client
        refine leftBehind_iff_of_nil ?_ ?_ ?_ ?_
        · rw [nextEq, sendErrorToWaitlist_entry]
        · rw [nextEq, lock?, disjoint.1]
          exact forgotten
        · rw [nextEq]
          exact disjoint.2
        · exact ⟨running, ⟨record, found, isInternal⟩, listed, lastOne, Or.inl invalid⟩
    | pagein running _ listed _ lastOne valid finished =>
        exact leftBehind_pagein_iff ⟨record, found, isInternal⟩ running listed lastOne valid
          finished
    | unlock _ _ _ _ first rest waiting firstListed finished =>
        exact leftBehind_unlock_iff waiting firstListed finished
  · refine leftBehind_iff_of_same Iff.rfl forgotten Iff.rfl ?_
    rintro _ ⟨_, ⟨record, found, isInternal⟩, _⟩
    rw [external record found] at isInternal
    cases isInternal

/-- What dropping a client leaves of it on a page. -/
theorem traceless_handle_iff (handled : page.handle (.dropClient control) results = some next) :
    next.Traceless control ↔ page.LeavesNoTrace control results := by
  rcases Option.map_eq_some_iff.mp handled with ⟨dropped, dropDone, rfl⟩
  exact (traceless_dropClient_iff dropped control).trans (leftBehind_dropLocks_iff dropDone)

/-- One entry of the client is taken off the list. -/
theorem takeNexterror_split {client : MachPort} {entries rest : List NexterrorEntry}
    {found : NexterrorEntry} (taken : takeNexterror client entries = some (found, rest)) :
    ∃ before after, entries = before ++ found :: after ∧ rest = before ++ after ∧
      found.client = client := by
  induction entries generalizing rest with
  | nil => cases taken
  | cons entry others ih =>
      unfold takeNexterror at taken
      split_ifs at taken with isOwn
      · cases taken
        exact ⟨[], others, rfl, rfl, isOwn⟩
      · rcases Option.map_eq_some_iff.mp taken with ⟨⟨_, more⟩, takenLater, same⟩
        cases same
        rcases ih takenLater with ⟨before, after, rfl, rfl, isClient⟩
        exact ⟨entry :: before, after, rfl, rfl, isClient⟩

theorem mem_of_takeNexterror {client : MachPort} {entries rest : List NexterrorEntry}
    {found entry : NexterrorEntry} (taken : takeNexterror client entries = some (found, rest))
    (entryMem : entry ∈ rest) : entry ∈ entries := by
  rcases takeNexterror_split taken with ⟨before, after, rfl, rfl, -⟩
  rcases List.mem_append.mp entryMem with earlier | later
  · exact List.mem_append_left _ earlier
  · exact List.mem_append_right _ (List.mem_cons_of_mem _ later)

/-- A client that the page knows nothing of and has not been writing to. -/
structure Silent (page : Page) (control : MachPort) : Prop extends Traceless page control where
  notTold : ∀ message ∈ page.messages, message.1 ≠ control

/-- A routine that brings nobody new keeps the page silent. -/
theorem Silent.of_fewer (silent : page.Silent control)
    (accesslist : control ∈ next.entry.accesslist → control ∈ page.entry.accesslist)
    (waitlist : control ∈ waitingClients next.entry.waitlist →
      control ∈ waitingClients page.entry.waitlist)
    (locks : next.lock? control = page.lock? control)
    (nexterror : ∀ entry ∈ next.nexterror, entry ∈ page.nexterror)
    (messages : ∀ message ∈ next.messages, message ∈ page.messages) : next.Silent control where
  notListed listed := silent.notListed (accesslist listed)
  notWaiting waits := silent.notWaiting (waitlist waits)
  notLocked := locks.trans silent.notLocked
  noError entry entryMem := silent.noError entry (nexterror entry entryMem)
  notTold message messageMem := silent.notTold message (messages message messageMem)

theorem Silent.of_same (silent : page.Silent control)
    (accesslist : next.entry.accesslist = page.entry.accesslist)
    (waitlist : next.entry.waitlist = page.entry.waitlist) (locks : next.locks = page.locks)
    (nexterror : next.nexterror = page.nexterror) (messages : next.messages = page.messages) :
    next.Silent control := by
  refine silent.of_fewer (fun listed => accesslist ▸ listed) (fun waits => waitlist ▸ waits) ?_
    (fun _ entryMem => nexterror ▸ entryMem) (fun _ messageMem => messages ▸ messageMem)
  rw [lock?, lock?, locks]

theorem Silent.send (silent : page.Silent control) (event : PageEvent)
    (others : ∀ message ∈ event.message?, message.1 ≠ control) :
    (page.send event).Silent control where
  toTraceless := ⟨silent.notListed, silent.notWaiting, silent.notLocked, silent.noError⟩
  notTold message messageMem := by
    rw [Page.messages, Page.send, List.filterMap_append, List.mem_append] at messageMem
    rcases messageMem with before | now
    · exact silent.notTold message before
    · refine others message ?_
      simpa using now

theorem Silent.flushEach (silent : page.Silent control) (clients : List MachPort)
    (others : control ∉ clients) : (page.flushEach clients).Silent control where
  notListed := by
    rw [flushEach_entry]
    exact silent.notListed
  notWaiting := by
    rw [flushEach_entry]
    exact silent.notWaiting
  notLocked := by
    rw [flushEach_lock?, if_neg others]
    exact silent.notLocked
  noError := by
    rw [flushEach_nexterror]
    exact silent.noError
  notTold message messageMem := by
    rw [flushEach_messages, List.mem_append] at messageMem
    rcases messageMem with before | now
    · exact silent.notTold message before
    · rcases List.mem_map.mp now with ⟨client, clientMem, rfl⟩
      exact fun isControl => others (isControl ▸ clientMem)

theorem Silent.serviceWaitlist (silent : page.Silent control) {data : ℕ}
    {allowWriteAccess deallocate : Bool}
    (served : page.serviceWaitlist data allowWriteAccess deallocate = some next) :
    next.Silent control := by
  rcases serviceWaitlist_cases served with ⟨_, rfl⟩ | ⟨first, rest, _, waiting, rfl⟩
  · exact silent
  have notWaiting := silent.notWaiting
  rw [mem_waitingClients_iff allowWriteAccess control waiting, not_or] at notWaiting
  rcases serveFirst_frame data deallocate first rest page allowWriteAccess with
    ⟨sameLocks, sameErrors, -⟩
  have batch : (page.serveFirst data allowWriteAccess deallocate first rest).Silent control := by
    refine ⟨⟨?_, ?_, ?_, ?_⟩, ?_⟩
    · rw [mem_serveFirst_accesslist, not_or]
      exact ⟨silent.notListed, notWaiting.1⟩
    · rw [serveFirst_waitlist]
      exact notWaiting.2
    · rw [lock?, sameLocks]
      exact silent.notLocked
    · rw [sameErrors]
      exact silent.noError
    · intro message messageMem
      rw [serveFirst_messages, List.mem_append] at messageMem
      rcases messageMem with before | now
      · exact silent.notTold message before
      · rcases List.mem_map.mp now with ⟨client, clientMem, rfl⟩
        exact fun isControl => notWaiting.1 (isControl ▸ clientMem)
  unfold flushForWaiting
  split_ifs
  · exact batch
  · exact batch.flushEach _ batch.notListed

theorem Silent.sendErrorToWaitlist (silent : page.Silent control) :
    page.sendErrorToWaitlist.Silent control := by
  have sendsError : ∀ (waitlist : List WaitlistClient) (page : Page), page.Silent control →
      control ∉ waitingClients waitlist → (waitlist.foldl sendErrorTo page).Silent control := by
    intro waitlist
    induction waitlist with
    | nil => exact fun _ silent _ => silent
    | cons waiting rest ih =>
        intro page silent notWaiting
        simp only [waitingClients, List.map_cons, List.mem_cons, not_or] at notWaiting
        refine ih _ ?_ notWaiting.2
        unfold sendErrorTo
        split_ifs
        · have flushed := silent.flushEach [waiting.client] (by simpa using notWaiting.1)
          refine ⟨⟨flushed.notListed, flushed.notWaiting, flushed.notLocked, ?_⟩, flushed.notTold⟩
          intro entry entryMem
          rcases List.mem_append.mp entryMem with before | now
          · exact silent.noError entry before
          · rw [List.mem_singleton.mp now]
            exact Ne.symm notWaiting.1
        · refine silent.send _ ?_
          rintro message ⟨⟩
          exact Ne.symm notWaiting.1
  have sent := sendsError page.entry.waitlist page silent silent.notWaiting
  exact sent.of_fewer id (fun waits => absurd waits List.not_mem_nil) rfl (fun _ => id)
    (fun _ => id)

theorem Silent.finalizeUnlock (silent : page.Silent control) {error : KernReturn}
    (finished : page.finalizeUnlock error = some next) : next.Silent control := by
  have popped : ∀ {first : WaitlistClient} {rest : List WaitlistClient},
      page.entry.waitlist = first :: rest →
        first.client ≠ control ∧ (page.setWaitlist rest).Silent control := by
    intro first rest waiting
    have notWaiting := silent.notWaiting
    simp only [waiting, waitingClients, List.map_cons, List.mem_cons, not_or] at notWaiting
    exact ⟨Ne.symm notWaiting.1, silent.of_fewer id (fun waits => absurd waits notWaiting.2) rfl
      (fun _ => id) (fun _ => id)⟩
  cases finalizeUnlock_cases finished with
  | granted first rest waiting _ nextEq =>
      rcases popped waiting with ⟨different, silentRest⟩
      have told : (((page.setWaitlist rest).send (.lockRequest first.client .none false vmProtNone
          false)).setWriteAccessGranted true).Silent control := by
        refine (silentRest.send (.lockRequest first.client .none false vmProtNone false)
          ?_).of_same rfl rfl rfl rfl rfl
        rintro message ⟨⟩
        exact different
      rw [nextEq]
      refine told.flushEach _ ?_
      split_ifs
      · exact List.not_mem_nil
      · simpa using Ne.symm different
  | failed first rest waiting _ nextEq =>
      rcases popped waiting with ⟨different, silentRest⟩
      have flushed := silentRest.flushEach [first.client] (by simpa using Ne.symm different)
      rw [nextEq]
      refine ⟨⟨flushed.notListed, flushed.notWaiting, flushed.notLocked, ?_⟩, flushed.notTold⟩
      intro entry entryMem
      rcases List.mem_append.mp entryMem with before | now
      · exact silent.noError entry before
      · rw [List.mem_singleton.mp now]
        exact different

theorem Silent.finishPagein (silent : page.Silent control) {result : ReadResult}
    (finished : page.finishPagein result = some next) : next.Silent control := by
  have errorSet : ∀ error, (page.setError error).Silent control :=
    fun _ => silent.of_same rfl rfl rfl rfl rfl
  rcases finishPagein_cases finished with ⟨_, served⟩ | ⟨_, rfl⟩
  · exact (errorSet kernSuccess).serviceWaitlist served
  · exact (errorSet result.error).sendErrorToWaitlist

/-- A client leaves ACCESSLIST. -/
theorem Silent.removeFromAccesslist (silent : page.Silent control) (client : MachPort) :
    (page.removeFromAccesslist client).Silent control :=
  silent.of_fewer (fun listed => (OrdSet.mem_erase.mp listed).1) id rfl (fun _ => id) (fun _ => id)

theorem Silent.internalLockCompleted {client : MachPort} (silent : page.Silent control)
    (completed : page.internalLockCompleted client results = some next) :
    next.Silent control := by
  have removed := silent.removeFromAccesslist client
  cases internalLockCompleted_cases completed with
  | terminating _ nextEq =>
      rw [nextEq]
      exact silent
  | idle _ _ _ nextEq =>
      rw [nextEq]
      exact silent
  | others _ _ _ _ _ nextEq =>
      rw [nextEq]
      exact removed
  | refuse _ _ _ _ _ _ nextEq =>
      rw [nextEq]
      exact removed.sendErrorToWaitlist
  | pagein _ _ _ _ _ _ finished =>
      exact (removed.send .readPage (fun _ => nofun)).finishPagein finished
  | unlock _ _ _ _ _ _ _ _ finished =>
      exact (removed.send .unlockPage (fun _ => nofun)).finalizeUnlock finished

theorem Silent.addToWaitlist {client : MachPort} (silent : page.Silent control) (write : Bool)
    (different : client ≠ control) : (page.addToWaitlist client write).Silent control := by
  refine silent.of_fewer id ?_ rfl (fun _ => id) (fun _ => id)
  simp only [Page.addToWaitlist, waitingClients, List.map_append, List.map_cons, List.map_nil,
    List.mem_append, List.mem_singleton]
  exact fun waits => waits.resolve_right (Ne.symm different)

theorem Silent.dataRequest {client : MachPort} {write : Bool} (silent : page.Silent control)
    (different : client ≠ control)
    (requested : page.dataRequest client write results = some next) : next.Silent control := by
  have left : (page.leaveForRequest client).Silent control := by
    unfold leaveForRequest
    split_ifs
    · exact (silent.removeFromAccesslist client).of_same rfl rfl rfl rfl rfl
    · exact silent
  cases dataRequest_cases requested with
  | error found rest taken nextEq =>
      have told : (page.send (.dataError client found.error)).Silent control := by
        refine silent.send _ ?_
        rintro message ⟨⟩
        exact different
      rw [nextEq]
      exact told.of_fewer id id rfl (fun entry entryMem => mem_of_takeNexterror taken entryMem)
        (fun _ => id)
  | held _ _ nextEq =>
      have notFlushed : control ∉ (if page.entry.waitlist = [] then
          page.entry.accesslist.toList else []) := by
        split_ifs
        · exact silent.notListed
        · exact List.not_mem_nil
      rw [nextEq]
      exact (silent.flushEach _ notFlushed).addToWaitlist write different
  | completed _ _ _ finished =>
      exact (silent.addToWaitlist write different).internalLockCompleted finished
  | waits _ _ _ nextEq =>
      rw [nextEq]
      exact silent.addToWaitlist write different
  | revokes _ _ _ nextEq =>
      rw [nextEq]
      exact (left.addToWaitlist write different).flushEach _ left.notListed
  | pagein _ _ _ _ _ finished =>
      have told : ((page.leaveForRequest client).tellInvalid client).Silent control := by
        unfold tellInvalid
        split_ifs
        · refine left.send _ ?_
          rintro message ⟨⟩
          exact different
        · exact left
      exact ((told.addToWaitlist write different).send .readPage (fun _ => nofun)).finishPagein
        finished

theorem Silent.dataUnlock {client : MachPort} {first : Bool} {others : List MachPort}
    (silent : page.Silent control) (notAmong : control ∉ others)
    (unlocked : page.dataUnlock client first others results = some next) :
    next.Silent control := by
  have ne_of_listed : client ∈ page.entry.accesslist → client ≠ control :=
    fun listed same => silent.notListed (same ▸ listed)
  have notFlushed : control ∉ (if first then others else []) := by
    split_ifs
    · exact notAmong
    · exact List.not_mem_nil
  cases dataUnlock_cases unlocked with
  | ignored _ _ nextEq =>
      rw [nextEq]
      exact silent.flushEach _ notFlushed
  | queued listed _ _ _ nextEq =>
      rw [nextEq]
      exact (silent.addToWaitlist true (ne_of_listed listed)).flushEach _ notFlushed
  | revokes listed _ _ _ nextEq =>
      rw [nextEq]
      refine (silent.addToWaitlist true (ne_of_listed listed)).flushEach _ ?_
      split_ifs
      · rw [List.mem_append, not_or]
        exact ⟨silent.notListed, notAmong⟩
      · exact List.not_mem_nil
  | alone listed _ _ _ finished =>
      exact (((silent.addToWaitlist true (ne_of_listed listed)).flushEach _ notFlushed).send
        .unlockPage (fun _ => nofun)).finalizeUnlock finished

theorem Silent.handedOff {client : MachPort} {data : ℕ} {dirty kernelCopy : Bool}
    {flags : ReturnFlags} (silent : page.Silent control)
    (handedOff : HandedOff page client data dirty kernelCopy next flags) :
    next.Silent control := by
  have left : (page.leaveForReturn client).Silent control := by
    unfold leaveForReturn
    split_ifs
    · exact silent
    · exact silent.removeFromAccesslist client
  cases handedOff with
  | keeps _ nextEq =>
      rw [nextEq]
      exact silent
  | serves _ _ _ served => exact left.serviceWaitlist served
  | unlocks _ _ _ _ _ _ _ _ nextEq =>
      rw [nextEq]
      exact left
  | evicts _ _ _ _ nextEq =>
      rw [nextEq]
      exact left.of_fewer id id rfl (fun _ => nofun) (fun _ => id)
  | leaves _ _ nextEq =>
      rw [nextEq]
      exact left

theorem Silent.notified (silent : page.Silent control) (notified : Notified page next) :
    next.Silent control :=
  silent.of_same (by rw [notified.entry]) (by rw [notified.entry]) notified.locks
    notified.nexterror notified.messages

theorem Silent.dataReturn {client : MachPort} {data : ℕ} {dirty kernelCopy any : Bool}
    (silent : page.Silent control)
    (returned : page.dataReturn client data dirty kernelCopy any results = some next) :
    next.Silent control := by
  have afterWritten : ∀ {handed : Page}, handed.Silent control →
      (handed.written data results.write).Silent control := by
    intro handed silent
    rcases handed.written_frame data results.write with
      ⟨accesslist, waitlist, -, locks, nexterror, messages, -⟩
    exact silent.of_same accesslist waitlist locks nexterror messages
  cases dataReturn_cases returned with
  | clean _ _ _ handedOff _ notified => exact (silent.handedOff handedOff).notified notified
  | unlocks _ _ _ _ handedOff _ notifies finished =>
      exact (((silent.handedOff handedOff).send .unlockPage (fun _ => nofun)).notified
        notifies).finalizeUnlock finished
  | keeps _ _ nextEq =>
      rw [nextEq]
      exact afterWritten silent
  | serves _ _ _ handedOff _ served =>
      exact (afterWritten (silent.handedOff handedOff)).serviceWaitlist served
  | evicts _ _ handed handedOff _ notified =>
      have evicted : (handed.written data results.write).evicted.Silent control :=
        (afterWritten (silent.handedOff handedOff)).of_fewer id id rfl (fun _ => nofun)
          (fun _ => id)
      exact evicted.notified notified

/-- The input neither is a request of the client nor flushes it for another page. -/
def Without (control : MachPort) : PageInput → Prop
  | .dataRequest client _ => client ≠ control
  | .dataUnlock _ _ others => control ∉ others
  | .lockObject clients => control ∉ clients
  | .dataReturn .. => True
  | .dataReturnUnmatched .. => True
  | .lockCompleted _ => True
  | .dropClient _ => True
  | .shutdown => True

theorem Silent.storeLocks (silent : page.Silent control)
    {locks : OrdMap MachPort OutstandingClientLock} (notLocked : locks.find? control = none) :
    (page.storeLocks locks).Silent control := by
  refine silent.of_fewer id id ?_ (fun _ => id) (fun _ => id)
  rw [storeLocks_lock?, notLocked, silent.notLocked]

theorem Silent.forget (silent : page.Silent control) (client : MachPort) :
    (page.forget client).Silent control := by
  refine silent.storeLocks ?_
  rw [OrdMap.find?_erase, find?_getD_locks, silent.notLocked, ite_self]

theorem Silent.foldl_countLock (silent : page.Silent control) (clients : List MachPort)
    (notAmong : control ∉ clients) : (clients.foldl countLock page).Silent control := by
  induction clients generalizing page with
  | nil => exact silent
  | cons client rest ih =>
      rw [List.mem_cons, not_or] at notAmong
      refine ih ?_ notAmong.2
      refine silent.of_fewer id id ?_ (fun _ => id) (fun _ => id)
      have counted : (page.countLock client).lock? control =
          ((page.locks.getD ∅).insert client
            { (page.lock? client).getD {} with
              count := ((page.lock? client).getD {}).count + 1 }).find? control := rfl
      rw [counted, OrdMap.find?_insert, if_neg notAmong.1, find?_getD_locks]

/-- No handler of a page brings back a client that the page knows nothing of. -/
theorem Silent.handle {input : PageInput} (silent : page.Silent control)
    (without : Without control input) (handled : page.handle input results = some next) :
    next.Silent control := by
  cases input with
  | dataRequest client write => exact silent.dataRequest without handled
  | dataUnlock client first others => exact silent.dataUnlock without handled
  | dataReturn client data dirty kernelCopy any => exact silent.dataReturn handled
  | dataReturnUnmatched client data kernelCopy =>
      rcases dataReturnUnmatched_cases handled with ⟨handed, handedOff, rfl⟩
      exact (silent.handedOff handedOff).of_same rfl rfl rfl rfl rfl
  | lockCompleted client =>
      cases lockCompleted_cases handled with
      | counted record found _ nextEq =>
          have different : control ≠ client := by
            rintro rfl
            rw [silent.notLocked] at found
            cases found
          rw [nextEq]
          refine silent.storeLocks ?_
          rw [OrdMap.find?_insert, if_neg different, find?_getD_locks, silent.notLocked]
      | external _ _ _ _ nextEq =>
          rw [nextEq]
          exact silent.forget client
      | internal _ _ _ _ finished => exact (silent.forget client).internalLockCompleted finished
  | dropClient client =>
      rcases Option.map_eq_some_iff.mp handled with ⟨dropped, dropDone, rfl⟩
      have droppedSilent : dropped.Silent control := by
        rcases dropLocks_cases dropDone with ⟨_, _, _, finished⟩ | ⟨_, rfl⟩
        · exact (silent.forget client).internalLockCompleted finished
        · exact silent.forget client
      unfold Page.dropClient
      split_ifs
      · exact (droppedSilent.removeFromAccesslist client).of_same rfl rfl rfl rfl rfl
      · exact droppedSilent
  | lockObject clients =>
      cases handled
      exact silent.foldl_countLock clients without
  | shutdown =>
      cases handled
      exact silent.of_same rfl rfl rfl rfl rfl

end Page

namespace Pager

variable {pager middle next : Pager} {control client : MachPort} {results : Callbacks}

/-- The record of a client for the locks of a range. -/
def lockAt? (pager : Pager) (key : LockKey) (client : MachPort) : Option OutstandingClientLock :=
  (pager.outstandingLocks.find? key).bind (·.find? client)

/-- A client that is in none of the structures of the pager. -/
structure NoTrace (pager : Pager) (control : MachPort) : Prop where
  notClient : control ∉ pager.clients
  notListed : ∀ number, control ∉ (pager.pagemap number).accesslist
  notWaiting : ∀ number, control ∉ waitingClients (pager.pagemap number).waitlist
  notLocked : ∀ key, pager.lockAt? key control = none
  noError : ∀ number, ∀ entry ∈ pager.nexterror number, entry.client ≠ control

/-- A client that the pager knows nothing of but for its pages. -/
structure Apart (pager : Pager) (control : MachPort) : Prop where
  notClient : control ∉ pager.clients
  notLocked : ∀ key, (∀ number, key ≠ pager.pageKey number) → pager.lockAt? key control = none

theorem noTrace_iff : pager.NoTrace control ↔
    pager.Apart control ∧ ∀ number, (pager.page number).Traceless control := by
  constructor
  · rintro ⟨notClient, notListed, notWaiting, notLocked, noError⟩
    exact ⟨⟨notClient, fun key _ => notLocked key⟩, fun number => ⟨notListed number,
      notWaiting number, notLocked (pager.pageKey number), noError number⟩⟩
  · rintro ⟨apart, traceless⟩
    refine ⟨apart.notClient, fun number => (traceless number).notListed,
      fun number => (traceless number).notWaiting, fun key => ?_,
      fun number => (traceless number).noError⟩
    by_cases isPage : ∃ number, key = pager.pageKey number
    · rcases isPage with ⟨number, rfl⟩
      exact (traceless number).notLocked
    · exact apart.notLocked key (not_exists.mp isPage)

/-- A routine brings no record of the client but to the pages, and does not write to it. -/
structure Aside (control : MachPort) (pager next : Pager) : Prop where
  pageSize : next.pageSize = pager.pageSize
  locks : ∀ key, (∀ number, key ≠ pager.pageKey number) → pager.lockAt? key control = none →
    next.lockAt? key control = none
  told : ∀ event ∈ next.sent, event ∈ pager.sent ∨ event.direct? = none

theorem Aside.trans (first : Aside control pager middle) (second : Aside control middle next) :
    Aside control pager next where
  pageSize := second.pageSize.trans first.pageSize
  locks key notPage none := by
    refine second.locks key ?_ (first.locks key notPage none)
    intro number
    rw [pageKey, first.pageSize]
    exact notPage number
  told event eventMem := by
    rcases second.told event eventMem with before | direct
    · exact first.told event before
    · exact Or.inr direct

theorem SameRest.aside (rest : SameRest pager next) : Aside control pager next where
  pageSize := rest.pageSize
  locks key notPage none := by
    rw [lockAt?, rest.locks key notPage]
    exact none
  told := rest.told

theorem lockAt?_storeLocks (pager : Pager) (key other : LockKey)
    (locks : OrdMap MachPort OutstandingClientLock) (control : MachPort) :
    (pager.storeLocks key locks).lockAt? other control =
      if other = key then locks.find? control else pager.lockAt? other control := by
  rw [lockAt?, find?_storeLocks]
  by_cases same : other = key
  · rw [if_pos same, if_pos same]
    by_cases empty : locks.isEmpty = true
    · simp [empty, OrdMap.isEmpty_iff.mp empty control]
    · simp [empty]
  · rw [if_neg same, if_neg same]
    rfl

theorem aside_storeLocks {key : LockKey} {locks : OrdMap MachPort OutstandingClientLock}
    (kept : pager.lockAt? key control = none → locks.find? control = none) :
    Aside control pager (pager.storeLocks key locks) where
  pageSize := (pager.sameCore_storeLocks key locks).pageSize
  locks other _ none := by
    rw [lockAt?_storeLocks]
    split_ifs with same
    · exact kept (same ▸ none)
    · exact none
  told event eventMem := by
    unfold storeLocks at eventMem
    split_ifs at eventMem
    · rcases List.mem_append.mp eventMem with before | now
      · exact Or.inl before
      · rw [List.mem_singleton.mp now]
        exact Or.inr rfl
    · exact Or.inl eventMem

/-- `internal_lock_completed` after a record of a page has been stored. -/
theorem aside_internalLockCompleted {number : ℕ} {locks : OrdMap MachPort OutstandingClientLock}
    (kept : pager.lockAt? (pager.pageKey number) control = none → locks.find? control = none)
    (done : (pager.storeLocks (pager.pageKey number) locks).internalLockCompleted client
      (number * pager.pageSize) pager.pageSize results = some next) : Aside control pager next := by
  rw [← (pager.sameCore_storeLocks (pager.pageKey number) locks).pageSize] at done
  exact (aside_storeLocks kept).trans (internalLockCompleted_view done).1.aside

theorem aside_lockCompleted (noInternal : pager.NoInternalElsewhere) {offset length : ℕ}
    (done : pager.lockCompleted client offset length results = some next) :
    Aside control pager next := by
  unfold lockCompleted at done
  simp only at done
  cases found : pager.outstandingLocks.find? (toLex (offset, length) : LockKey) with
  | none =>
      rw [found] at done
      cases done
  | some locks =>
      rw [found] at done
      simp only at done
      have sameLock : ∀ other, pager.lockAt? (toLex (offset, length)) other = locks.find? other := by
        intro other
        rw [lockAt?, found]
        rfl
      cases record? : locks.find? client with
      | none =>
          rw [record?] at done
          cases done
      | some record =>
          rw [record?] at done
          simp only at done
          have erased : pager.lockAt? (toLex (offset, length)) control = none →
              (locks.erase client).find? control = none := by
            intro none
            rw [OrdMap.find?_erase, ← sameLock, none, ite_self]
          split_ifs at done with zero last isInternal
          · by_cases isPage : ∃ number, (toLex (offset, length) : LockKey) = pager.pageKey number
            · rcases isPage with ⟨number, keyEq⟩
              rcases pageKey_eq_iff.mp keyEq with ⟨rfl, rfl⟩
              exact aside_internalLockCompleted (by exact erased) (by exact done)
            · have external := noInternal _ (not_exists.mp isPage) locks found client record record?
              rw [external] at isInternal
              cases isInternal
          · cases done
            exact aside_storeLocks erased
          · cases done
            refine aside_storeLocks ?_
            intro none
            rw [sameLock] at none
            have different : control ≠ client := by
              rintro rfl
              rw [none] at record?
              cases record?
            rw [OrdMap.find?_insert, if_neg different, none]

/-- The lock loop of `drop_client` on one record. -/
theorem aside_dropLocks (noInternal : pager.NoInternalElsewhere) {key : LockKey}
    (done : pager.dropLocks client key results = some next) :
    (∀ control, Aside control pager next) ∧
      ((∀ number, key ≠ pager.pageKey number) → next.lockAt? key client = none) := by
  unfold dropLocks at done
  cases found : pager.outstandingLocks.find? key with
  | none =>
      rw [found] at done
      cases done
      refine ⟨fun _ => (SameRest.refl pager).aside, fun _ => ?_⟩
      rw [lockAt?, found]
      rfl
  | some locks =>
      rw [found] at done
      simp only at done
      have erased : ∀ control, pager.lockAt? key control = none →
          (locks.erase client).find? control = none := by
        intro control none
        rw [lockAt?, found] at none
        rw [OrdMap.find?_erase, show locks.find? control = Option.none from none, ite_self]
      split_ifs at done with internal
      · by_cases isPage : ∃ number, key = pager.pageKey number
        · rcases isPage with ⟨number, rfl⟩
          exact ⟨fun control => aside_internalLockCompleted (erased control) done,
            fun notPage => absurd rfl (notPage number)⟩
        · have external := noInternal key (not_exists.mp isPage) locks found client
          cases record? : locks.find? client with
          | none =>
              rw [record?] at internal
              cases internal
          | some record =>
              rw [record?] at internal
              have contradiction := (external record record?).symm.trans internal
              cases contradiction
      · cases done
        refine ⟨fun control => aside_storeLocks (erased control), fun _ => ?_⟩
        rw [lockAt?_storeLocks, if_pos rfl, OrdMap.find?_erase, if_pos rfl]

theorem aside_forEach_dropLocks {keys : List LockKey} (noInternal : pager.NoInternalElsewhere)
    (done : Loop.forEach (fun key pager => pager.dropLocks client key results) keys pager =
      some next) :
    (∀ control, Aside control pager next) ∧
      ∀ key ∈ keys, (∀ number, key ≠ pager.pageKey number) → next.lockAt? key client = none := by
  induction keys generalizing pager with
  | nil =>
      cases done
      exact ⟨fun _ => (SameRest.refl _).aside, fun _ keyMem => absurd keyMem List.not_mem_nil⟩
  | cons head tail ih =>
      rcases Option.bind_eq_some_iff.mp done with ⟨middle, headDone, tailDone⟩
      rcases dropLocks_view noInternal headDone with ⟨headCore, headNone, -, -⟩
      rcases ih headNone tailDone with ⟨tailAside, tailErased⟩
      rcases aside_dropLocks noInternal headDone with ⟨headAside, headErased⟩
      refine ⟨fun control => (headAside control).trans (tailAside control), ?_⟩
      intro key keyMem notPage
      have stillNotPage : ∀ number, key ≠ middle.pageKey number := by
        intro number
        rw [headCore.pageKey]
        exact notPage number
      rcases List.mem_cons.mp keyMem with rfl | inTail
      · exact (tailAside client).locks key stillNotPage (headErased notPage)
      · exact tailErased key inTail stillNotPage

/-- What `drop_client` does apart from the pages. -/
theorem apart_dropClient (noInternal : pager.NoInternalElsewhere)
    (done : pager.dropClient client results = some next) :
    next.Apart client ∧ ∀ control, Aside control pager next := by
  rcases dropClient_view noInternal done with ⟨-, -, -, sameClients, -, -⟩
  rcases Option.map_eq_some_iff.mp done with ⟨dropped, loopDone, rfl⟩
  rcases aside_forEach_dropLocks noInternal loopDone with ⟨aside, erased⟩
  refine ⟨⟨?_, ?_⟩, ?_⟩
  · rw [sameClients]
    exact fun isClient => (OrdSet.mem_erase.mp isClient).2 rfl
  · intro key notPage
    have notPageBefore : ∀ number, key ≠ pager.pageKey number := by
      intro number
      rw [pageKey, ← (aside client).pageSize]
      exact notPage number
    by_cases recorded : key ∈ pager.outstandingLocks.keys
    · exact erased key recorded notPageBefore
    · refine (aside client).locks key notPageBefore ?_
      rw [OrdMap.mem_keys_iff, Option.not_isSome_iff_eq_none] at recorded
      rw [lockAt?, recorded]
      rfl
  · intro control
    refine ⟨(aside control).pageSize, (aside control).locks, ?_⟩
    intro event eventMem
    rcases List.mem_append.mp eventMem with before | now
    · exact (aside control).told event before
    · rcases List.mem_map.mp now with ⟨request, _, rfl⟩
      exact Or.inr rfl

theorem Apart.of_aside (apart : pager.Apart control) (aside : Aside control pager next)
    (fewer : control ∈ next.clients → control ∈ pager.clients) : next.Apart control where
  notClient isClient := apart.notClient (fewer isClient)
  notLocked key notPage := by
    have notPageBefore : ∀ number, key ≠ pager.pageKey number := by
      intro number
      rw [pageKey, ← aside.pageSize]
      exact notPage number
    exact aside.locks key notPageBefore (apart.notLocked key notPageBefore)

/-- `lock_object` counts locks for, and writes to, the clients it signals only. -/
theorem apart_foldl_signal (offset length : ℕ) (shouldReturn : MemoryObjectReturn)
    (flush sync : Bool) {clients : List MachPort} (notAmong : control ∉ clients)
    (apart : pager.Apart control)
    (notTold : ∀ event ∈ pager.sent, event.direct? ≠ some control) :
    (clients.foldl (signal offset length shouldReturn flush sync) pager).Apart control ∧
      ∀ event ∈ (clients.foldl (signal offset length shouldReturn flush sync) pager).sent,
        event.direct? ≠ some control := by
  induction clients generalizing pager with
  | nil => exact ⟨apart, notTold⟩
  | cons client rest ih =>
      rw [List.mem_cons, not_or] at notAmong
      have told : ∀ event ∈ pager.sent ++
          [.lockRequest client offset length shouldReturn flush vmProtNoChange sync],
          event.direct? ≠ some control := by
        intro event eventMem
        rcases List.mem_append.mp eventMem with before | now
        · exact notTold event before
        · rw [List.mem_singleton.mp now]
          exact fun same => notAmong.1 (Option.some_inj.mp same).symm
      refine ih notAmong.2 ?_ ?_
      · unfold signal
        split_ifs
        · refine ⟨apart.notClient, fun key notPage => ?_⟩
          have before := apart.notLocked key notPage
          unfold lockAt? countLock
          rw [find?_setLocks]
          split_ifs with same
          · subst same
            rw [Option.bind_some, OrdMap.find?_insert, if_neg notAmong.1]
            unfold lockAt? at before
            simp only [emit]
            cases found : pager.outstandingLocks.find? (toLex (offset, length)) with
            | none => rfl
            | some locks =>
                rw [found] at before
                exact before
          · exact before
        · exact ⟨apart.notClient, apart.notLocked⟩
      · unfold signal
        split_ifs
        · exact told
        · exact told

/-- An input in a run that the client has gone from: it neither initialises nor requests. -/
def Gone (control : MachPort) : Input → Prop
  | .objectInit client _ => client ≠ control
  | .dataRequest client .. => client ≠ control
  | .dataUnlock .. => True
  | .dataReturn .. => True
  | .lockCompleted .. => True
  | .objectTerminate _ => True
  | .deadName _ => True
  | .lockObject .. => True
  | .shutdown => True

theorem apart_handle {input : Input} (quiet : pager.Quiet) (noTrace : pager.NoTrace control)
    (gone : Gone control input) (handled : pager.handle (input, results) = some next) :
    next.Apart control ∧ ∀ event ∈ next.sent, event.direct? ≠ some control := by
  have apart : ({ pager with sent := [] } : Pager).Apart control :=
    ⟨noTrace.notClient, fun key _ => noTrace.notLocked key⟩
  have noInternal : ({ pager with sent := [] } : Pager).NoInternalElsewhere :=
    quiet.noInternalElsewhere
  have of_aside : Aside control { pager with sent := [] } next →
      (control ∈ next.clients → control ∈ pager.clients) →
        next.Apart control ∧ ∀ event ∈ next.sent, event.direct? ≠ some control := by
    intro aside fewer
    refine ⟨apart.of_aside aside fewer, fun event eventMem => ?_⟩
    rcases aside.told event eventMem with before | direct
    · cases before
    · rw [direct]
      rintro ⟨⟩
  cases input with
  | objectInit client pagesize =>
      simp only [handle, objectInit] at handled
      split_ifs at handled
      · cases handled
        exact of_aside (SameRest.refl _).aside id
      · cases handled
        refine ⟨⟨fun isClient => ?_, apart.notLocked⟩, fun event eventMem => ?_⟩
        · rcases OrdSet.mem_insert.mp isClient with same | before
          · exact gone same.symm
          · exact apart.notClient before
        · rw [List.mem_singleton.mp eventMem]
          exact fun same => gone (Option.some_inj.mp same)
  | dataRequest client offset length access =>
      simp only [handle, dataRequest] at handled
      split_ifs at handled
      · cases handled
        exact of_aside (SameRest.refl _).aside id
      · have rest := sameRest_onPage handled
        exact of_aside rest.aside fun isClient => rest.clients ▸ isClient
  | dataUnlock client offset length =>
      have rest := (dataUnlock_view handled).1
      exact of_aside rest.aside fun isClient => rest.clients ▸ isClient
  | dataReturn client offset data length dirty kernelCopy =>
      have noneQueued : ({ pager with sent := [] } : Pager).writewait = [] := quiet.writewait
      have rest := (dataReturn_view (fun _ => noneQueued) handled).1
      exact of_aside rest.aside fun isClient => rest.clients ▸ isClient
  | lockCompleted client offset length =>
      have core := (lockCompleted_view noInternal handled).1
      exact of_aside (aside_lockCompleted noInternal handled) fun isClient =>
        core.clients ▸ isClient
  | objectTerminate client =>
      rcases dropClient_view noInternal handled with ⟨-, -, -, sameClients, -, -⟩
      refine of_aside ((apart_dropClient noInternal handled).2 control) fun isClient => ?_
      rw [sameClients] at isClient
      exact (OrdSet.mem_erase.mp isClient).1
  | deadName client =>
      rcases dropClient_view noInternal handled with ⟨-, -, -, sameClients, -, -⟩
      refine of_aside ((apart_dropClient noInternal handled).2 control) fun isClient => ?_
      rw [sameClients] at isClient
      exact (OrdSet.mem_erase.mp isClient).1
  | lockObject offset length shouldReturn flush sync =>
      cases handled
      refine apart_foldl_signal offset length shouldReturn flush sync ?_ apart (by rintro _ ⟨⟩)
      intro signalled
      rcases mem_lockObjectClients signalled with ⟨number, listed⟩
      exact noTrace.notListed number listed
  | shutdown =>
      cases handled
      exact ⟨⟨apart.notClient, apart.notLocked⟩, by rintro _ ⟨⟩⟩

/-- What a page input brings of a client is on some page already, or the client asked for it. -/
theorem Reaches.without {input : Input} {number : ℕ} {pageInput : PageInput}
    (reaches : Reaches pager input number pageInput) (gone : Gone control input)
    (notListed : ∀ number, control ∉ (pager.pagemap number).accesslist) :
    Page.Without control pageInput := by
  have notAmong : ∀ {clients : List MachPort},
      (∀ client ∈ clients, ∃ number, client ∈ (pager.pagemap number).accesslist) →
        control ∉ clients := by
    intro clients clientsListed among
    rcases clientsListed control among with ⟨number, listed⟩
    exact notListed number listed
  cases reaches with
  | dataRequest => exact gone
  | dataUnlock others othersListed => exact notAmong othersListed
  | lockObject clients clientsListed => exact notAmong clientsListed
  | dataReturn => trivial
  | dataReturnUnmatched => trivial
  | lockCompleted => trivial
  | objectTerminate => trivial
  | deadName => trivial
  | shutdown => trivial

/-- The client a message goes to. -/
def recipient? : Event → Option MachPort
  | .page _ event => event.message?.map Prod.fst
  | event => event.direct?

/-- A client that has left no trace leaves none after another handler, which is silent to it. -/
theorem noTrace_handle {input : Input} (quiet : pager.Quiet) (noTrace : pager.NoTrace control)
    (gone : Gone control input) (handled : pager.handle (input, results) = some next) :
    next.NoTrace control ∧ ∀ event ∈ next.sent, recipient? event ≠ some control := by
  rcases apart_handle quiet noTrace gone handled with ⟨apart, notDirect⟩
  rcases handle_view quiet handled with ⟨-, -, -, projects⟩
  have silent : ∀ number, (next.view number).Silent control := by
    intro number
    have before : (pager.page number).Silent control :=
      ⟨(noTrace_iff.mp noTrace).2 number, fun _ => nofun⟩
    rcases projects number with same | ⟨pageInput, reaches, pageHandled⟩
    · rw [same]
      exact before
    · exact before.handle (reaches.without gone noTrace.notListed) pageHandled
  refine ⟨noTrace_iff.mpr ⟨apart, fun number => ⟨(silent number).notListed,
    (silent number).notWaiting, (silent number).notLocked, (silent number).noError⟩⟩, ?_⟩
  intro event eventMem
  cases event with
  | page number event =>
      intro toControl
      rcases Option.map_eq_some_iff.mp toControl with ⟨message, messageEq, isControl⟩
      refine (silent number).notTold message ?_ isControl
      exact List.mem_filterMap.mpr ⟨event, mem_eventsOf.mpr eventMem, messageEq⟩
  | lockRequest => exact notDirect _ eventMem
  | ready => exact notDirect _ eventMem
  | changeCompleted => exact notDirect _ eventMem
  | wakeLockWaiters => exact notDirect _ eventMem
  | wakeWriteWaiters => exact notDirect _ eventMem

/-- The pager sends nothing more to a client, however long it runs without it. -/
def NeverToldAgain (pager : Pager) (control : MachPort) : Prop :=
  ∀ later, Transition.Reachable handle (fun _ label => Gone control label.1) pager later →
    ∀ label after, Gone control label.1 → later.handle label = some after →
      ∀ event ∈ after.sent, recipient? event ≠ some control

theorem neverToldAgain_of_noTrace (quiet : pager.Quiet) (noTrace : pager.NoTrace control) :
    pager.NeverToldAgain control := by
  intro later reached label after gone handled
  have invariant : later.Quiet ∧ later.NoTrace control := by
    refine reached.invariant (fun pager => pager.Quiet ∧ pager.NoTrace control)
      ⟨quiet, noTrace⟩ ?_
    rintro state next ⟨input, results⟩ ⟨quiet, noTrace⟩ gone handled
    exact ⟨(handle_view quiet handled).1, (noTrace_handle quiet noTrace gone handled).1⟩
  exact (noTrace_handle invariant.1 invariant.2 gone handled).2

/-- A dropped client leaves no trace exactly when it is owed no error and waits for no page. -/
theorem noTrace_drop_iff {pageSize : ℕ} (pageSize_pos : 0 < pageSize) (mayCache : Bool)
    (copyStrategy : ℕ) (notifyOnEvict : Bool) {input : Input}
    (reached : Transition.Reachable handle (fun _ _ => True)
      (create pageSize pageSize_pos mayCache copyStrategy notifyOnEvict) pager)
    (drops : input = .objectTerminate control ∨ input = .deadName control)
    (handled : pager.handle (input, results) = some next) :
    next.NoTrace control ∧ next.NeverToldAgain control ↔
      ∀ number, (pager.page number).LeavesNoTrace control (results number) := by
  have quiet : pager.Quiet := by
    refine reached.invariant Quiet (create_quiet _ _ _ _ _) ?_
    rintro state next ⟨input, results⟩ quiet _ handled
    exact (handle_view quiet handled).1
  have nextQuiet := (handle_view quiet handled).1
  have noInternal : ({ pager with sent := [] } : Pager).NoInternalElsewhere :=
    quiet.noInternalElsewhere
  have dropped : ({ pager with sent := [] } : Pager).dropClient control results = some next := by
    rcases drops with rfl | rfl <;> exact handled
  rcases dropClient_view noInternal dropped with ⟨-, -, -, -, -, views⟩
  have pages : ∀ number, (next.page number).Traceless control ↔
      (pager.page number).LeavesNoTrace control (results number) := by
    intro number
    have sameTrace : (next.page number).Traceless control ↔
        (next.view number).Traceless control :=
      ⟨fun ⟨listed, waiting, locked, error⟩ => ⟨listed, waiting, locked, error⟩,
        fun ⟨listed, waiting, locked, error⟩ => ⟨listed, waiting, locked, error⟩⟩
    exact sameTrace.trans (Page.traceless_handle_iff (views number))
  constructor
  · rintro ⟨noTrace, -⟩ number
    exact (pages number).mp ((noTrace_iff.mp noTrace).2 number)
  · intro leavesNone
    have noTrace : next.NoTrace control := noTrace_iff.mpr
      ⟨(apart_dropClient noInternal dropped).1, fun number => (pages number).mpr (leavesNone number)⟩
    exact ⟨noTrace, neverToldAgain_of_noTrace nextQuiet noTrace⟩

/-- A second client waits for a page that a writer holds. -/
def waitingClientRun : List (Input × Callbacks) :=
  [.objectInit 1 1, .objectInit 2 1, .dataRequest 1 0 1 vmProtWrite,
    .dataRequest 2 0 1 vmProtNone].map fun input => (input, fun _ => {})

/-- The waiting client dies, stays on WAITLIST, and is sent the page when the writer returns it. -/
theorem waitingClientRun_leaves_trace :
    ∃ pager next after, Transition.run handle waitingClientRun (create 1 (by decide) false 0 false) =
        some pager ∧ pager.handle (.deadName 2, fun _ => {}) = some next ∧
      ¬next.NoTrace 2 ∧
      next.handle (.dataReturn 1 0 (fun _ => 7) 1 false false, fun _ => {}) = some after ∧
      ∃ event ∈ after.sent, recipient? event = some 2 := by
  refine ⟨_, _, _, rfl, rfl, fun noTrace => ?_, rfl, ?_⟩
  · exact noTrace.notWaiting 0 (by decide)
  · decide

/-- A client that holds a page and waits for nothing. -/
def holdingClientRun : List (Input × Callbacks) :=
  [.objectInit 1 1, .dataRequest 1 0 1 vmProtNone].map fun input => (input, fun _ => {})

theorem noTrace_after_holding :
    ∃ pager next, Transition.run handle holdingClientRun (create 1 (by decide) false 0 false) =
        some pager ∧ pager.handle (.objectTerminate 1, fun _ => {}) = some next ∧
      next.NoTrace 1 ∧ next.NeverToldAgain 1 := by
  obtain ⟨pager, next, finished, handled, idle⟩ : ∃ pager next,
      Transition.run handle holdingClientRun (create 1 (by decide) false 0 false) = some pager ∧
        pager.handle (.objectTerminate 1, fun _ => {}) = some next ∧
        ∀ number, (pager.pagemap number).waitlist = [] ∧ pager.nexterror number = [] := by
    refine ⟨_, _, rfl, rfl, fun number => ?_⟩
    cases number with
    | zero => exact ⟨rfl, rfl⟩
    | succ number => exact ⟨rfl, rfl⟩
  have reached : Transition.Reachable handle (fun _ _ => True)
      (create 1 (by decide) false 0 false) pager :=
    Transition.Reachable.start.of_run holdingClientRun
      (Transition.AllowedRun.of_always (fun _ _ _ => trivial) _) finished
  refine ⟨pager, next, finished, handled, (noTrace_drop_iff (by decide) false 0 false reached
    (Or.inl rfl) handled).mpr fun number => ?_⟩
  rcases idle number with ⟨noneWaiting, noError⟩
  refine ⟨fun entry entryMem => ?_, fun waiting => ?_⟩
  · rw [show (pager.page number).nexterror = [] from noError] at entryMem
    cases entryMem
  · rw [show (pager.page number).entry.waitlist = [] from noneWaiting] at waiting
    cases waiting

end Pager

end Hurd.Libpager
