import Mathlib.Data.List.Basic
import Mathlib.Logic.Function.Basic
import Mathlib.Tactic.Common

/-!
# The queues of `queue.h`

A queue is a pointer to its first item and the address of the pointer that an item to be enqueued
is stored in: `head` of the queue itself while it is empty, else `next` of its last item.  Many
queues share the items; an item that is not in any of them may be put into any of them.
-/

universe u

namespace Hurd.Libpager

/-- The address of a `struct item` -/
abbrev Address := ℕ

/-- What `tail` points to -/
inductive Slot (κ : Type u)
  | head (queue : κ)
  | next (item : Address)

/-- The members of all items and of all queues -/
structure Links (κ : Type u) where
  next : Address → Option Address
  head : κ → Option Address
  tail : κ → Slot κ

namespace Links

variable {κ : Type u} [DecidableEq κ]

/-- `*slot = item` -/
def store (links : Links κ) (item : Option Address) : Slot κ → Links κ
  | .head queue => { links with head := Function.update links.head queue item }
  | .next address => { links with next := Function.update links.next address item }

/-- `queue_init` -/
def queueInit (links : Links κ) (queue : κ) : Links κ :=
  { links with
    head := Function.update links.head queue none
    tail := Function.update links.tail queue (.head queue) }

/-- `queue_enqueue` -/
def queueEnqueue (links : Links κ) (queue : κ) (item : Address) : Links κ :=
  let stored := links.store (some item) (links.tail queue)
  { stored with
    tail := Function.update stored.tail queue (.next item)
    next := Function.update stored.next item none }

/-- `queue_dequeue` -/
def queueDequeue (links : Links κ) (queue : κ) : Option (Address × Links κ) :=
  match links.head queue with
  | none => none
  | some item =>
      some (item, { links with
        head := Function.update links.head queue (links.next item)
        tail := if links.next item = none then Function.update links.tail queue (.head queue)
          else links.tail
        next := Function.update links.next item none })

/-- `queue_empty` -/
def queueEmpty (links : Links κ) (queue : κ) : Bool := (links.head queue).isNone

end Links

/-- The items that a pointer leads to, one after the other -/
def Chain (next : Address → Option Address) : Option Address → List Address → Prop
  | first, [] => first = none
  | first, item :: rest => first = some item ∧ Chain next (next item) rest

section Chain

variable {next : Address → Option Address} {first : Option Address} {items : List Address}
  {item last : Address}

theorem chain_update (notMem : item ∉ items) {value : Option Address} :
    Chain (Function.update next item value) first items ↔ Chain next first items := by
  induction items generalizing first with
  | nil => rfl
  | cons head rest ih =>
      rw [List.mem_cons, not_or] at notMem
      simp only [Chain, ih notMem.2, Function.update_of_ne (Ne.symm notMem.1)]

theorem Chain.first_eq (chain : Chain next first items) : first = items.head? := by
  cases items with
  | nil => exact chain
  | cons head rest => exact chain.1

/-- The item is stored behind the last one. -/
theorem Chain.concat (chain : Chain next first (items ++ [last]))
    (distinct : (items ++ [last]).Nodup) (isNew : item ∉ items ++ [last]) :
    Chain (Function.update (Function.update next last (some item)) item none) first
      (items ++ [last] ++ [item]) := by
  induction items generalizing first with
  | nil =>
      have different : last ≠ item := by simpa using Ne.symm (by simpa using isNew)
      simp [Chain, chain.1, different]
  | cons head rest ih =>
      rcases chain with ⟨isFirst, chain⟩
      rw [List.cons_append, List.nodup_cons] at distinct
      rw [List.cons_append, List.mem_cons, not_or] at isNew
      have notLast : head ≠ last := by
        rintro rfl
        exact distinct.1 (by simp)
      refine ⟨isFirst, ?_⟩
      rw [Function.update_of_ne (Ne.symm isNew.1), Function.update_of_ne notLast]
      exact ih chain distinct.2 isNew.2

end Chain

namespace Links

variable {κ : Type u} [DecidableEq κ]

/-- Where the next item of a queue is to be stored -/
def lastSlot (queue : κ) (items : List Address) : Slot κ :=
  match items.getLast? with
  | none => .head queue
  | some last => .next last

/-- The links hold these queues, and no item is in two of them or twice in one. -/
structure Holds (links : Links κ) (queues : κ → List Address) : Prop where
  chain : ∀ queue, Chain links.next (links.head queue) (queues queue)
  tail : ∀ queue, links.tail queue = lastSlot queue (queues queue)
  distinct : ∀ queue, (queues queue).Nodup
  disjoint : ∀ queue other, queue ≠ other → (queues queue).Disjoint (queues other)

variable {links : Links κ} {queues : κ → List Address} {queue : κ} {item : Address}
  {rest : List Address}

omit [DecidableEq κ] in
theorem Holds.notMem_other (holds : links.Holds queues) (isMem : item ∈ queues queue) {other : κ}
    (different : other ≠ queue) : item ∉ queues other :=
  fun otherMem => holds.disjoint other queue different otherMem isMem

theorem Holds.queueInit (holds : links.Holds queues) (queue : κ) :
    (links.queueInit queue).Holds (Function.update queues queue []) := by
  constructor
  · intro other
    by_cases same : other = queue
    · subst same
      simp [Links.queueInit, Chain]
    · simpa [Links.queueInit, same] using holds.chain other
  · intro other
    by_cases same : other = queue
    · subst same
      simp [Links.queueInit, lastSlot]
    · simpa [Links.queueInit, same] using holds.tail other
  · intro other
    by_cases same : other = queue
    · subst same
      simp
    · simpa [same] using holds.distinct other
  · intro first second different
    by_cases isFirst : first = queue
    · subst isFirst
      simp
    · by_cases isSecond : second = queue
      · subst isSecond
        simp
      · simpa [isFirst, isSecond] using holds.disjoint first second different

/-- Changing one queue keeps the others apart from it. -/
theorem Holds.disjoint_update (holds : links.Holds queues) {items : List Address}
    (apart : ∀ other, other ≠ queue → items.Disjoint (queues other)) (first second : κ)
    (different : first ≠ second) : (Function.update queues queue items first).Disjoint
      (Function.update queues queue items second) := by
  by_cases isFirst : first = queue
  · subst isFirst
    simpa [Ne.symm different] using apart second (Ne.symm different)
  · by_cases isSecond : second = queue
    · subst isSecond
      rw [Function.update_self, Function.update_of_ne isFirst]
      exact fun _ inFirst inItems => apart first isFirst inItems inFirst
    · simpa [isFirst, isSecond] using holds.disjoint first second different

/-- An item that is in no queue goes to the end of one. -/
theorem Holds.queueEnqueue (holds : links.Holds queues) (queue : κ)
    (isNew : ∀ other, item ∉ queues other) :
    (links.queueEnqueue queue item).Holds
      (Function.update queues queue (queues queue ++ [item])) := by
  have distinct : (queues queue ++ [item]).Nodup := by
    rw [List.nodup_append]
    refine ⟨holds.distinct queue, by simp, ?_⟩
    rintro other otherMem _ isItem rfl
    rw [List.mem_singleton] at isItem
    exact isNew queue (isItem ▸ otherMem)
  have apart : ∀ other, other ≠ queue → (queues queue ++ [item]).Disjoint (queues other) := by
    intro other different
    rw [List.disjoint_append_left]
    exact ⟨holds.disjoint queue other (Ne.symm different), by simpa using isNew other⟩
  refine ⟨?_, ?_, ?_, holds.disjoint_update apart⟩
  · intro other
    have tail := holds.tail queue
    have chain := holds.chain queue
    rcases List.eq_nil_or_concat (queues queue) with isEmpty | ⟨items, last, isConcat⟩
    · rw [isEmpty] at tail chain
      by_cases same : other = queue
      · subst same
        simp [Links.queueEnqueue, tail, lastSlot, store, isEmpty, Chain]
      · simpa [Links.queueEnqueue, tail, lastSlot, store, same, chain_update (isNew other)] using
          holds.chain other
    · rw [List.concat_eq_append] at isConcat
      rw [isConcat] at tail chain
      have isLast : links.tail queue = .next last := by simpa [lastSlot] using tail
      by_cases same : other = queue
      · subst same
        have linked := chain.concat (isConcat ▸ holds.distinct other) (isConcat ▸ isNew other)
        simpa [Links.queueEnqueue, isLast, store, isConcat] using linked
      · have lastMem : last ∈ queues queue := by simp [isConcat]
        have notLast : last ∉ queues other := holds.notMem_other lastMem same
        simpa [Links.queueEnqueue, isLast, store, same, chain_update (isNew other),
          chain_update notLast] using holds.chain other
  · intro other
    have sameTail : (links.store (some item) (links.tail queue)).tail = links.tail := by
      cases links.tail queue <;> rfl
    by_cases same : other = queue
    · subst same
      simp [Links.queueEnqueue, lastSlot]
    · simpa [Links.queueEnqueue, same, sameTail] using holds.tail other
  · intro other
    by_cases same : other = queue
    · subst same
      simpa using distinct
    · simpa [same] using holds.distinct other

theorem Holds.queueDequeue_nil (holds : links.Holds queues) (isEmpty : queues queue = []) :
    links.queueDequeue queue = none := by
  have isNull := (holds.chain queue).first_eq
  rw [isEmpty] at isNull
  simp [Links.queueDequeue, isNull]

/-- The first item comes off its queue. -/
theorem Holds.queueDequeue_cons (holds : links.Holds queues) (isCons : queues queue = item :: rest) :
    ∃ after, links.queueDequeue queue = some (item, after) ∧
      after.Holds (Function.update queues queue rest) := by
  have chain := holds.chain queue
  have distinct := holds.distinct queue
  rw [isCons] at chain distinct
  rcases chain with ⟨isHead, chain⟩
  rw [List.nodup_cons] at distinct
  have itemMem : item ∈ queues queue := by simp [isCons]
  have apart : ∀ other, other ≠ queue → rest.Disjoint (queues other) := by
    intro other different
    have all := holds.disjoint queue other (Ne.symm different)
    rw [isCons] at all
    exact List.disjoint_of_disjoint_cons_left all
  rw [Links.queueDequeue, isHead]
  refine ⟨_, rfl, ?_, ?_, ?_, holds.disjoint_update apart⟩
  · intro other
    by_cases same : other = queue
    · subst same
      simpa [chain_update distinct.1] using chain
    · simpa [same, chain_update (holds.notMem_other itemMem same)] using holds.chain other
  · intro other
    have isNext := chain.first_eq
    by_cases same : other = queue
    · subst same
      have tail := holds.tail other
      rw [isCons] at tail
      cases rest with
      | nil => simp [isNext, lastSlot]
      | cons second others => simpa [isNext, lastSlot] using tail
    · dsimp only
      split_ifs <;> simpa [same] using holds.tail other
  · intro other
    by_cases same : other = queue
    · subst same
      simpa using distinct.2
    · simpa [same] using holds.distinct other

omit [DecidableEq κ] in
theorem Holds.queueEmpty (holds : links.Holds queues) (queue : κ) :
    links.queueEmpty queue = (queues queue).isEmpty := by
  rw [Links.queueEmpty, (holds.chain queue).first_eq]
  cases queues queue <;> rfl

end Links

end Hurd.Libpager
