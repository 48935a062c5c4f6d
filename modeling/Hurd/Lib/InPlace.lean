import Hurd.Lib.Lockstep
import Hurd.Lib.Traverse

/-!
# Values that are replaced where they are

A loop that reads a value out of memory, and writes what becomes of it back to the same place, does
what the loop over the values themselves does, as long as no two places overlap.
-/

universe u v w x

namespace Loop

variable {μ : Type u} {κ : Type v} {α : Type w} {σ : Type x}

/-- One pass of such a loop -/
def rewriteAt (read : μ → κ → α) (write : μ → κ → α → μ) (body : σ → α → Option (α × σ))
    (place : κ) (state : μ × σ) : Option (μ × σ) :=
  (body state.2 (read state.1 place)).map fun result => (write state.1 place result.1, result.2)

/-- Places that can be written without a change to what is read at the other ones -/
structure Places (read : μ → κ → α) (write : μ → κ → α → μ) (places : List κ) : Prop where
  same : ∀ memory, ∀ place ∈ places, ∀ value, read (write memory place value) place = value
  other : places.Pairwise fun place other => ∀ memory value,
    read (write memory place value) other = read memory other ∧
      read (write memory other value) place = read memory place

variable {read : μ → κ → α} {write : μ → κ → α → μ} {body : σ → α → Option (α × σ)}

theorem Places.tail {place : κ} {rest : List κ} (isPlaces : Places read write (place :: rest)) :
    Places read write rest :=
  ⟨fun memory other otherMem => isPlaces.same memory other (List.mem_cons_of_mem _ otherMem),
    (List.pairwise_cons.mp isPlaces.other).2⟩

/-- What no write changes, the loop does not change. -/
theorem forEach_rewriteAt_unchanged {ν : Type*} (view : μ → ν) {places : List κ}
    (unchanged : ∀ place ∈ places, ∀ memory value, view (write memory place value) = view memory)
    {state next : μ × σ}
    (finished : forEach (rewriteAt read write body) places state = some next) :
    view next.1 = view state.1 := by
  induction places generalizing state with
  | nil =>
      cases finished
      rfl
  | cons place rest ih =>
      rcases Option.bind_eq_some_iff.mp finished with ⟨middle, placeDone, restDone⟩
      rcases Option.map_eq_some_iff.mp placeDone with ⟨result, _, rfl⟩
      rw [ih (fun other otherMem => unchanged other (List.mem_cons_of_mem _ otherMem)) restDone]
      exact unchanged place List.mem_cons_self state.1 result.1

/-- Replacing the values where they are is replacing the values. -/
theorem forEach_rewriteAt {places : List κ} (isPlaces : Places read write places) (memory : μ)
    (state : σ) :
    Option.Rel (fun written replaced =>
        written.2 = replaced.2 ∧ places.map (read written.1) = replaced.1)
      (forEach (rewriteAt read write body) places (memory, state))
      (traverse body state (places.map (read memory))) := by
  induction places generalizing memory state with
  | nil => exact .some ⟨rfl, rfl⟩
  | cons place rest ih =>
      have apart := (List.pairwise_cons.mp isPlaces.other).1
      simp only [forEach, rewriteAt, List.map_cons, traverse]
      cases isResult : body state (read memory place) with
      | none => exact .none
      | some result =>
          have sameRest : rest.map (read memory) =
              rest.map (read (write memory place result.1)) :=
            List.map_congr_left fun other otherMem => ((apart other otherMem memory result.1).1).symm
          have goesOn := ih isPlaces.tail (write memory place result.1) result.2
          simp only [Option.map_some, Option.bind_some, sameRest]
          generalize isLast : forEach (rewriteAt read write body) rest
            (write memory place result.1, result.2) = last at goesOn
          generalize traverse body result.2 (rest.map (read (write memory place result.1))) = others
            at goesOn
          cases goesOn with
          | none => exact .none
          | some related =>
              refine .some ⟨related.1, ?_⟩
              have atPlace := forEach_rewriteAt_unchanged (fun memory => read memory place)
                (fun other otherMem memory value => (apart other otherMem memory value).2) isLast
              rw [related.2, atPlace, isPlaces.same memory place List.mem_cons_self]

end Loop
