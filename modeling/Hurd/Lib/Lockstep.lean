import Hurd.Lib.Transition

/-!
# Two systems in lockstep

Two partial computations are in lockstep when both fail, or both succeed with related results.
Lockstep goes through binds, loops and folds, and from one step to a whole run.  Lists are in
lockstep element by element.
-/

universe u v w x

namespace Lockstep

section Computations

variable {α : Type u} {β : Type v} {α' : Type w} {β' : Type x}
variable {relation : α → β → Prop} {relation' : α' → β' → Prop}

theorem bind {first : Option α} {second : Option β} {next : α → Option α'} {next' : β → Option β'}
    (related : Option.Rel relation first second)
    (go : ∀ {result result'}, relation result result' →
      Option.Rel relation' (next result) (next' result')) :
    Option.Rel relation' (first.bind next) (second.bind next') := by
  cases related with
  | some related => exact go related
  | none => exact .none

/-- As `bind`, for what the first computation returns -/
theorem bind_of_eq {first : Option α} {second : Option β} {next : α → Option α'}
    {next' : β → Option β'} (related : Option.Rel relation first second)
    (go : ∀ {result result'}, first = some result → relation result result' →
      Option.Rel relation' (next result) (next' result')) :
    Option.Rel relation' (first.bind next) (second.bind next') := by
  cases related with
  | some related => exact go rfl related
  | none => exact .none

theorem map {first : Option α} {second : Option β} {next : α → α'} {next' : β → β'}
    (related : Option.Rel relation first second)
    (go : ∀ {result result'}, relation result result' → relation' (next result) (next' result')) :
    Option.Rel relation' (first.map next) (second.map next') := by
  cases related with
  | some related => exact .some (go related)
  | none => exact .none

theorem mono {relation relation' : α → β → Prop} {first : Option α} {second : Option β}
    (weaken : ∀ {result result'}, relation result result' → relation' result result')
    (related : Option.Rel relation first second) : Option.Rel relation' first second := by
  cases related with
  | some related => exact .some (weaken related)
  | none => exact .none

/-- Tests of the same condition -/
theorem guarded {α β : Type} {relation : α → β → Prop} {condition condition' : Prop}
    [Decidable condition] [Decidable condition'] {first : Option α} {second : Option β}
    (same : condition ↔ condition') (go : condition → Option.Rel relation first second) :
    Option.Rel relation (guard condition >>= fun _ => first)
      (guard condition' >>= fun _ => second) := by
  by_cases holds : condition
  · rw [guard, guard, if_pos holds, if_pos (same.mp holds)]
    exact go holds
  · have fails : ¬condition' := fun holds' => holds (same.mpr holds')
    rw [guard, guard, if_neg holds, if_neg fails]
    exact .none

end Computations

section Lists

variable {α : Type u} {β : Type v} {relation : α → β → Prop} {elements : List α} {others : List β}

theorem getElem? (related : List.Forall₂ relation elements others) (index : ℕ) :
    Option.Rel relation elements[index]? others[index]? := by
  induction related generalizing index with
  | nil => exact .none
  | cons head _ ih =>
      cases index with
      | zero => exact .some head
      | succ index => exact ih index

theorem eraseIdx (related : List.Forall₂ relation elements others) (index : ℕ) :
    List.Forall₂ relation (elements.eraseIdx index) (others.eraseIdx index) := by
  induction related generalizing index with
  | nil => exact .nil
  | cons head rest ih =>
      cases index with
      | zero => exact rest
      | succ index => exact .cons head (ih index)

theorem all {test : α → Bool} {test' : β → Bool}
    (same : ∀ {element other}, relation element other → test element = test' other)
    (related : List.Forall₂ relation elements others) : elements.all test = others.all test' := by
  induction related with
  | nil => rfl
  | cons head _ ih => rw [List.all_cons, List.all_cons, same head, ih]

end Lists

variable {σ : Type u} {τ : Type v} {ι : Type w} {relation : σ → τ → Prop}

theorem forEach {body : ι → σ → Option σ} {body' : ι → τ → Option τ}
    (pass : ∀ {index state state'}, relation state state' →
      Option.Rel relation (body index state) (body' index state'))
    {indices : List ι} {state : σ} {state' : τ} (related : relation state state') :
    Option.Rel relation (Loop.forEach body indices state) (Loop.forEach body' indices state') := by
  induction indices generalizing state state' with
  | nil => exact .some related
  | cons index rest ih => exact bind (pass related) ih

/-- As `forEach`, for the indices that the loop goes through -/
theorem forEach_of_mem {body : ι → σ → Option σ} {body' : ι → τ → Option τ} {indices : List ι}
    (pass : ∀ index ∈ indices, ∀ {state state'}, relation state state' →
      Option.Rel relation (body index state) (body' index state'))
    {state : σ} {state' : τ} (related : relation state state') :
    Option.Rel relation (Loop.forEach body indices state) (Loop.forEach body' indices state') := by
  induction indices generalizing state state' with
  | nil => exact .some related
  | cons index rest ih =>
      refine bind (pass index List.mem_cons_self related) ?_
      exact ih fun other otherMem => pass other (List.mem_cons_of_mem _ otherMem)

theorem foldl {body : σ → ι → σ} {body' : τ → ι → τ}
    (pass : ∀ {index state state'}, relation state state' →
      relation (body state index) (body' state' index))
    {indices : List ι} {state : σ} {state' : τ} (related : relation state state') :
    relation (indices.foldl body state) (indices.foldl body' state') := by
  induction indices generalizing state state' with
  | nil => exact related
  | cons index rest ih => exact ih (pass related)

/-- Systems that step together run together, as long as the steps are allowed. -/
theorem run {ℓ : Type w} {step : σ → ℓ → Option σ} {step' : τ → ℓ → Option τ}
    {allowed : σ → ℓ → Prop}
    (taken : ∀ {state state' label}, relation state state' → allowed state label →
      Option.Rel relation (step state label) (step' state' label))
    {labels : List ℓ} {state : σ} {state' : τ}
    (isAllowed : Transition.AllowedRun step allowed labels state) (related : relation state state') :
    Option.Rel relation (Transition.run step labels state) (Transition.run step' labels state') := by
  induction labels generalizing state state' with
  | nil => exact .some related
  | cons label rest ih =>
      have first := taken related isAllowed.1
      rw [Transition.run_cons, Transition.run_cons]
      generalize isNext : step state label = next at first
      generalize step' state' label = next' at first
      cases first with
      | some related => exact ih (isAllowed.2 _ isNext) related
      | none => exact .none

end Lockstep
