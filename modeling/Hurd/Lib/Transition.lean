import Mathlib.Data.Nat.Find
import Mathlib.Order.Basic
import Mathlib.Tactic.Common

/-!
# Runs of a labelled transition function

`step state label` is the state after a labelled step, or `none` where the step cannot be
taken or does not return.  `Reachable step allowed start` collects the states of all runs
from `start` in which every step is `allowed` in the state it is taken in; an invariant is
proved of all of them from the first state and one step.

A loop over indices, each pass of which touches only what its own index can see, is the
second half: `forEach_view` reads the effect of the whole loop on one index off the effect
of a single pass.
-/

universe u v w

namespace Transition

variable {σ : Type u} {ℓ : Type v}

/-- The states of the runs from `start` whose steps are all allowed. -/
inductive Reachable (step : σ → ℓ → Option σ) (allowed : σ → ℓ → Prop) (start : σ) : σ → Prop
  | start : Reachable step allowed start start
  | step {state next : σ} {label : ℓ} (before : Reachable step allowed start state)
      (isAllowed : allowed state label) (taken : step state label = some next) :
      Reachable step allowed start next

variable {step : σ → ℓ → Option σ} {allowed : σ → ℓ → Prop} {start : σ}

/-- What holds at the start and survives every allowed step holds in every state reached. -/
theorem Reachable.invariant (invariant : σ → Prop) (initially : invariant start)
    (preserved : ∀ {state next label}, invariant state → allowed state label →
      step state label = some next → invariant next)
    {state : σ} (reached : Reachable step allowed start state) : invariant state := by
  induction reached with
  | start => exact initially
  | step _ isAllowed taken ih => exact preserved ih isAllowed taken

/-- The state after a list of labels. -/
def run (step : σ → ℓ → Option σ) : List ℓ → σ → Option σ
  | [], state => some state
  | label :: rest, state => (step state label).bind (run step rest)

@[simp]
theorem run_nil (state : σ) : run step [] state = some state := rfl

theorem run_cons (label : ℓ) (labels : List ℓ) (state : σ) :
    run step (label :: labels) state = (step state label).bind (run step labels) := rfl

theorem run_append (first second : List ℓ) (state : σ) :
    run step (first ++ second) state = (run step first state).bind (run step second) := by
  induction first generalizing state with
  | nil => rfl
  | cons label rest ih =>
      simp only [List.cons_append, run_cons]
      cases step state label with
      | none => rfl
      | some next => exact ih next

/-- A run of the steps that other labels stand for -/
theorem run_map {ℓ' : Type w} (label : ℓ' → ℓ) (labels : List ℓ') (state : σ) :
    run step (labels.map label) state =
      run (fun state other => step state (label other)) labels state := by
  induction labels generalizing state with
  | nil => rfl
  | cons other rest ih =>
      rw [List.map_cons, run_cons, run_cons]
      exact Option.bind_congr fun next _ => ih next

/-- The last step of a run is taken in the state before it. -/
theorem run_concat {labels : List ℓ} {label : ℓ} {state seen next : σ}
    (isSeen : run step labels state = some seen)
    (finished : run step (labels ++ [label]) state = some next) : step seen label = some next := by
  rw [run_append, isSeen, Option.bind_some, run_cons] at finished
  rcases Option.bind_eq_some_iff.mp finished with ⟨last, taken, isLast⟩
  cases isLast
  exact taken

/-- Every step of a run over a list of labels is allowed in the state it is taken in. -/
def AllowedRun (step : σ → ℓ → Option σ) (allowed : σ → ℓ → Prop) : List ℓ → σ → Prop
  | [], _ => True
  | label :: rest, state =>
      allowed state label ∧ ∀ next, step state label = some next → AllowedRun step allowed rest next

/-- A run of labels that are allowed in every state is allowed. -/
theorem AllowedRun.of_always {labels : List ℓ}
    (always : ∀ label ∈ labels, ∀ state, allowed state label) (state : σ) :
    AllowedRun step allowed labels state := by
  induction labels generalizing state with
  | nil => trivial
  | cons label rest ih =>
      refine ⟨always label List.mem_cons_self state, fun next _ => ?_⟩
      exact ih (fun other otherMem => always other (List.mem_cons_of_mem _ otherMem)) next

theorem AllowedRun.append {first second : List ℓ} {state : σ}
    (isAllowed : AllowedRun step allowed first state)
    (goesOn : ∀ {middle}, run step first state = some middle →
      AllowedRun step allowed second middle) : AllowedRun step allowed (first ++ second) state := by
  induction first generalizing state with
  | nil => exact goesOn rfl
  | cons label rest ih =>
      refine ⟨isAllowed.1, fun next taken => ih (isAllowed.2 next taken) fun finished => goesOn ?_⟩
      rw [run_cons, taken]
      exact finished

/-- Whether a run is allowed is decided along its states. -/
instance decidableAllowedRun [∀ state label, Decidable (allowed state label)] :
    ∀ (labels : List ℓ) (state : σ), Decidable (AllowedRun step allowed labels state)
  | [], _ => isTrue trivial
  | label :: rest, state =>
      match taken : step state label with
      | none => decidable_of_iff (allowed state label) (by simp [AllowedRun, taken])
      | some next =>
          have := decidableAllowedRun rest next
          decidable_of_iff (allowed state label ∧ AllowedRun step allowed rest next)
            (by simp [AllowedRun, taken])

theorem Reachable.of_run (labels : List ℓ) {state next : σ}
    (before : Reachable step allowed start state) (isAllowed : AllowedRun step allowed labels state)
    (finished : run step labels state = some next) : Reachable step allowed start next := by
  induction labels generalizing state with
  | nil =>
      cases finished
      exact before
  | cons label rest ih =>
      rcases Option.bind_eq_some_iff.mp finished with ⟨middle, taken, finished⟩
      exact ih (before.step isAllowed.1 taken) (isAllowed.2 middle taken) finished

end Transition

namespace Loop

variable {σ : Type u} {ι : Type v} {ν : Type w}

/-- Run `body` for each index of a list in turn; `none` as soon as one pass fails. -/
def forEach (body : ι → σ → Option σ) : List ι → σ → Option σ
  | [], state => some state
  | index :: rest, state => (body index state).bind (forEach body rest)

/--
A pass is local to an index: it acts through `effect` on what the index sees, it changes
nothing any other index sees, and it fails only where `effect` fails.
-/
structure LocalTo (view : σ → ι → ν) (body : σ → Option σ) (index : ι)
    (effect : ν → Option ν) : Prop where
  own : ∀ {state next}, body state = some next → effect (view state index) = some (view next index)
  frame : ∀ {state next other}, body state = some next → other ≠ index →
    view next other = view state other
  total : ∀ {state seen}, effect (view state index) = some seen → ∃ next, body state = some next

variable {view : σ → ι → ν} {body : ι → σ → Option σ} {effect : ι → ν → Option ν}

/-- Loops whose passes are the same for the indices that they go through -/
theorem forEach_congr {body' : ι → σ → Option σ} {indices : List ι}
    (same : ∀ index ∈ indices, body index = body' index) (state : σ) :
    forEach body indices state = forEach body' indices state := by
  induction indices generalizing state with
  | nil => rfl
  | cons head tail ih =>
      rw [forEach, forEach, same head List.mem_cons_self]
      exact congrArg (Option.bind _)
        (funext fun next => ih (fun index indexMem => same index (List.mem_cons_of_mem _ indexMem))
          next)

/-- A loop of local passes over distinct indices acts on each of them once. -/
theorem forEach_view {indices : List ι} (distinct : indices.Nodup)
    (isLocal : ∀ index ∈ indices, LocalTo view (body index) index (effect index))
    {state next : σ} (finished : forEach body indices state = some next) :
    (∀ index ∈ indices, effect index (view state index) = some (view next index)) ∧
      ∀ other ∉ indices, view next other = view state other := by
  induction indices generalizing state with
  | nil =>
      cases finished
      simp
  | cons head tail ih =>
      rcases List.nodup_cons.mp distinct with ⟨headNotMem, tailDistinct⟩
      rcases Option.bind_eq_some_iff.mp finished with ⟨middle, headDone, tailDone⟩
      have headLocal := isLocal head List.mem_cons_self
      rcases ih tailDistinct
        (fun index indexMem => isLocal index (List.mem_cons_of_mem _ indexMem)) tailDone with
        ⟨tailOwn, tailFrame⟩
      constructor
      · intro index indexMem
        rcases List.mem_cons.mp indexMem with rfl | indexMem
        · rw [tailFrame _ headNotMem]
          exact headLocal.own headDone
        · have different : index ≠ head := fun same => headNotMem (same ▸ indexMem)
          rw [← headLocal.frame headDone different]
          exact tailOwn index indexMem
      · intro other otherNotMem
        rw [List.mem_cons, not_or] at otherNotMem
        rw [tailFrame other otherNotMem.2, headLocal.frame headDone otherNotMem.1]

/-- A loop stays within a reflexive and transitive relation when each pass does. -/
theorem forEach_relation (relation : σ → σ → Prop) (refl : ∀ state, relation state state)
    (trans : ∀ {first second third}, relation first second → relation second third →
      relation first third)
    (pass : ∀ {index state next}, body index state = some next → relation state next)
    {indices : List ι} {state next : σ} (finished : forEach body indices state = some next) :
    relation state next := by
  induction indices generalizing state with
  | nil =>
      cases finished
      exact refl next
  | cons head tail ih =>
      rcases Option.bind_eq_some_iff.mp finished with ⟨middle, headDone, tailDone⟩
      exact trans (pass headDone) (ih tailDone)

/-- A loop of local passes fails only where one of its passes fails on what it sees. -/
theorem forEach_total {indices : List ι} (distinct : indices.Nodup)
    (isLocal : ∀ index ∈ indices, LocalTo view (body index) index (effect index)) {state : σ}
    (succeeds : ∀ index ∈ indices, ∃ seen, effect index (view state index) = some seen) :
    ∃ next, forEach body indices state = some next := by
  induction indices generalizing state with
  | nil => exact ⟨state, rfl⟩
  | cons head tail ih =>
      rcases List.nodup_cons.mp distinct with ⟨headNotMem, tailDistinct⟩
      have headLocal := isLocal head List.mem_cons_self
      rcases succeeds head List.mem_cons_self with ⟨seen, headSucceeds⟩
      rcases headLocal.total headSucceeds with ⟨middle, headDone⟩
      have tailSucceeds : ∀ index ∈ tail, ∃ seen, effect index (view middle index) = some seen := by
        intro index indexMem
        have different : index ≠ head := fun same => headNotMem (same ▸ indexMem)
        rw [headLocal.frame headDone different]
        exact succeeds index (List.mem_cons_of_mem _ indexMem)
      rcases ih tailDistinct
        (fun index indexMem => isLocal index (List.mem_cons_of_mem _ indexMem)) tailSucceeds with
        ⟨next, tailDone⟩
      exact ⟨next, by rw [forEach, headDone, Option.bind_some, tailDone]⟩

/-- A loop whose test cannot hold more often than some bound ends at the first test that fails. -/
theorem ends_within {test : ℕ → Prop} [DecidablePred test] {bound : ℕ}
    (short : ∀ passes, (∀ pass < passes, test pass) → passes ≤ bound) :
    ∃ passes ≤ bound, ¬test passes ∧ ∀ pass < passes, test pass := by
  have fails : ∃ passes, ¬test passes := by
    by_contra never
    have always : ∀ pass, test pass := fun pass => not_not.mp (not_exists.mp never pass)
    have tooMany := short (bound + 1) fun pass _ => always pass
    omega
  have before : ∀ pass < Nat.find fails, test pass :=
    fun pass isBefore => not_not.mp (Nat.find_min fails isBefore)
  exact ⟨Nat.find fails, short _ before, Nat.find_spec fails, before⟩

end Loop
