import Hurd.Libpager.Projection

/-!
# The pages that `lock_object` reaches

`lock_object` goes through `LENGTH / page_size` pages from `OFFSET / page_size` on.  These all
overlap its range, and each of their clients is signalled once.  A range that does not begin and end
at a page overlaps one or two pages more, whose clients are signalled only if they also have one of
the others.
-/

namespace Hurd.Libpager

namespace Pager

/-- The page overlaps the range. -/
def Overlaps (pager : Pager) (offset length number : ℕ) : Prop :=
  number * pager.pageSize < offset + length ∧ offset < (number + 1) * pager.pageSize

/-- The lock requests to a client among what a handler has done -/
def lockRequestsTo (client : MachPort) (sent : List Event) : List Event :=
  sent.filter fun
    | .lockRequest other .. => other = client
    | _ => false

/-- The clients of the pages that overlap the range get one lock request for it, the others none. -/
structure SignalsExactly (pager next : Pager) (offset length : ℕ)
    (shouldReturn : MemoryObjectReturn) (flush sync : Bool) : Prop where
  once : ∀ client number, pager.Overlaps offset length number →
    pager.SignalsFor shouldReturn flush number client →
    lockRequestsTo client next.sent =
      [.lockRequest client offset length shouldReturn flush vmProtNoChange sync]
  others : ∀ client, (∀ number, pager.Overlaps offset length number →
    ¬pager.SignalsFor shouldReturn flush number client) → lockRequestsTo client next.sent = []

/-- Whoever has a page at the end of the range that the loop leaves out also has one of the others. -/
def NoClientMissed (pager : Pager) (offset length : ℕ) (shouldReturn : MemoryObjectReturn)
    (flush : Bool) : Prop :=
  ∀ number client, offset / pager.pageSize + length / pager.pageSize ≤ number →
    number * pager.pageSize < offset + length →
    pager.SignalsFor shouldReturn flush number client →
    ∃ other ∈ pager.pagesOf offset length, pager.SignalsFor shouldReturn flush other client

section Range

variable {pager : Pager} {offset length number : ℕ}

theorem pageSize_dvd_le (pager : Pager) (offset : ℕ) :
    offset / pager.pageSize * pager.pageSize ≤ offset ∧
      offset < (offset / pager.pageSize + 1) * pager.pageSize := by
  refine ⟨Nat.div_mul_le_self _ _, ?_⟩
  exact Nat.lt_mul_of_div_lt (Nat.lt_succ_self _) pager.pageSize_pos

/-- The pages of the loop overlap the range. -/
theorem overlaps_of_mem_pagesOf (isPage : number ∈ pager.pagesOf offset length) :
    pager.Overlaps offset length number := by
  rw [pagesOf, List.mem_range'_1] at isPage
  rcases isPage with ⟨isFirst, isLast⟩
  have sizes := pager.pageSize_dvd_le offset
  have lengths := (pager.pageSize_dvd_le length).1
  constructor
  · have later : (number + 1) * pager.pageSize ≤
        (offset / pager.pageSize + length / pager.pageSize) * pager.pageSize :=
      Nat.mul_le_mul_right _ isLast
    have size_pos := pager.pageSize_pos
    rw [Nat.add_mul, Nat.add_mul, Nat.one_mul] at later
    omega
  · exact lt_of_lt_of_le sizes.2 (Nat.mul_le_mul_right _ (Nat.succ_le_succ isFirst))

/-- A page that overlaps the range is in the loop, or comes after it. -/
theorem overlaps_cases (overlaps : pager.Overlaps offset length number) :
    number ∈ pager.pagesOf offset length ∨
      offset / pager.pageSize + length / pager.pageSize ≤ number := by
  have isFirst : offset / pager.pageSize ≤ number :=
    Nat.lt_succ_iff.mp ((Nat.div_lt_iff_lt_mul pager.pageSize_pos).mpr overlaps.2)
  rw [pagesOf, List.mem_range'_1]
  omega

end Range

section Signals

variable {pager : Pager} {offset length : ℕ} {shouldReturn : MemoryObjectReturn} {flush sync : Bool}

theorem foldl_signal_sent (clients : List MachPort) (pager : Pager) :
    (clients.foldl (signal offset length shouldReturn flush sync) pager).sent = pager.sent ++
      clients.map fun client =>
        .lockRequest client offset length shouldReturn flush vmProtNoChange sync := by
  induction clients generalizing pager with
  | nil => simp
  | cons client rest ih =>
      have told : (pager.signal offset length shouldReturn flush sync client).sent = pager.sent ++
          [.lockRequest client offset length shouldReturn flush vmProtNoChange sync] := by
        unfold signal
        cases sync <;> rfl
      rw [List.foldl_cons, ih, told]
      simp

/-- A list of clients without repetitions is sent one request each. -/
theorem lockRequestsTo_map {clients : List MachPort} (distinct : clients.Nodup) (client : MachPort) :
    lockRequestsTo client (clients.map fun client =>
        .lockRequest client offset length shouldReturn flush vmProtNoChange sync) =
      if client ∈ clients then
        [.lockRequest client offset length shouldReturn flush vmProtNoChange sync]
      else [] := by
  induction clients with
  | nil => rfl
  | cons first rest ih =>
      rw [List.nodup_cons] at distinct
      have tail := ih distinct.2
      unfold lockRequestsTo at tail ⊢
      rw [List.map_cons, List.filter_cons, tail]
      by_cases isFirst : first = client
      · subst isFirst
        simp [distinct.1]
      · simp [isFirst, Ne.symm isFirst]

/--
Whatever the state and the range, the right clients are signalled if and only if no client of a page
that the loop leaves out is missed.
-/
theorem lockObject_signalsExactly (pager : Pager) (offset length : ℕ)
    (shouldReturn : MemoryObjectReturn) (flush sync : Bool) (results : Callbacks) :
    ∃ next, pager.handle (.lockObject offset length shouldReturn flush sync, results) = some next ∧
      (pager.SignalsExactly next offset length shouldReturn flush sync ↔
        pager.NoClientMissed offset length shouldReturn flush) := by
  refine ⟨_, rfl, ?_⟩
  have requests : ∀ client, lockRequestsTo client
      (({ pager with sent := [] } : Pager).lockObject offset length shouldReturn flush sync).sent =
      if client ∈ pager.lockObjectClients offset length shouldReturn flush then
        [.lockRequest client offset length shouldReturn flush vmProtNoChange sync]
      else [] := by
    intro client
    rw [lockObject, foldl_signal_sent, List.nil_append, lockRequestsTo_map (OrdSet.nodup _)]
    rfl
  constructor
  · intro exactly number client isAfter isBefore signals
    have overlaps : pager.Overlaps offset length number := by
      refine ⟨isBefore, lt_of_lt_of_le (pager.pageSize_dvd_le offset).2 ?_⟩
      apply Nat.mul_le_mul_right
      exact Nat.succ_le_succ (le_trans (Nat.le_add_right _ _) isAfter)
    by_contra notOthers
    have told := exactly.once client number overlaps signals
    rw [requests client, if_neg fun isClient =>
      notOthers (mem_lockObjectClients_iff.mp isClient)] at told
    cases told
  · intro noneMissed
    constructor
    · intro client number overlaps signals
      refine (requests client).trans (if_pos (mem_lockObjectClients_iff.mpr ?_))
      rcases overlaps_cases overlaps with isPage | isAfter
      · exact ⟨number, isPage, signals⟩
      · exact noneMissed number client isAfter overlaps.1 signals
    · intro client noneOverlaps
      refine (requests client).trans (if_neg ?_)
      intro isClient
      rcases mem_lockObjectClients_iff.mp isClient with ⟨number, isPage, signals⟩
      exact noneOverlaps number (overlaps_of_mem_pagesOf isPage) signals

/-- A client has the second page of a file that ends within it. -/
def lastPageRun : List (Input × Callbacks) :=
  [(.dataRequest 1 4096 4096 vmProtWrite, fun _ => {})]

/-- The file is synced, and its last page is left out. -/
theorem lastPage_missed : ∃ pager next,
    Transition.run handle lastPageRun (create 4096 (by decide) false 0 false) = some pager ∧
      pager.handle (.lockObject 0 5000 .all false true, fun _ => {}) = some next ∧
      ¬pager.SignalsExactly next 0 5000 .all false true := by
  refine ⟨_, _, rfl, rfl, ?_⟩
  intro exactly
  have told := exactly.once 1 1 ⟨by decide, by decide⟩ ⟨by decide, by decide⟩
  exact absurd told (by decide)

end Signals

end Pager

end Hurd.Libpager
