import Hurd.Lib.Transition

/-!
# Runs that come to an end

A measure that every step of a kind lowers bounds the runs that consist of such steps.
-/

universe u v

namespace Transition

variable {σ : Type u} {ℓ : Type v} {step : σ → ℓ → Option σ}

/-- A run of steps that lower a measure is no longer than the measure. -/
theorem run_length_le (measure : σ → ℕ) (invariant : σ → Prop) (own : ℓ → Prop)
    (preserved : ∀ {state next label}, invariant state → own label →
      step state label = some next → invariant next)
    (lowers : ∀ {state next label}, invariant state → own label →
      step state label = some next → measure next < measure state)
    {labels : List ℓ} (all : ∀ label ∈ labels, own label) {state last : σ} (holds : invariant state)
    (finished : run step labels state = some last) :
    invariant last ∧ measure last + labels.length ≤ measure state := by
  induction labels generalizing state with
  | nil =>
      cases finished
      exact ⟨holds, le_rfl⟩
  | cons label rest ih =>
      rcases Option.bind_eq_some_iff.mp finished with ⟨next, taken, finished⟩
      have isOwn := all label List.mem_cons_self
      have lower := lowers holds isOwn taken
      have restOwn : ∀ other ∈ rest, own other :=
        fun other otherMem => all other (List.mem_cons_of_mem _ otherMem)
      rcases ih restOwn (preserved holds isOwn taken) finished with ⟨lastHolds, bound⟩
      refine ⟨lastHolds, ?_⟩
      rw [List.length_cons]
      omega

end Transition
