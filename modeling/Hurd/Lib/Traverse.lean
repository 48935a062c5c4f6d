import Mathlib.Data.List.Forall2
import Mathlib.Tactic.Common

/-!
# Loops that rewrite a list in place

`traverse body state elements` runs over a list, threading a state through `body` and
replacing each element by what `body` returns for it; it fails as soon as one pass does.  The
rules say what the whole loop keeps, and how the new elements stand to the old ones, in terms
of a single pass.
-/

universe u v w

namespace Loop

variable {σ : Type u} {α : Type v} {β : Type w}

/-- Replace each element of a list in turn; `none` as soon as one pass fails. -/
def traverse (body : σ → α → Option (β × σ)) : σ → List α → Option (List β × σ)
  | state, [] => some ([], state)
  | state, element :: rest =>
      match body state element with
      | none => none
      | some (replaced, middle) =>
          match traverse body middle rest with
          | none => none
          | some (others, final) => some (replaced :: others, final)

variable {body : σ → α → Option (β × σ)} {state final : σ}

theorem traverse_cons (element : α) (rest : List α) :
    traverse body state (element :: rest) =
      match body state element with
      | none => none
      | some (replaced, middle) =>
          match traverse body middle rest with
          | none => none
          | some (others, final) => some (replaced :: others, final) := rfl

theorem traverse_nil_iff {replaced : List β} :
    traverse body state [] = some (replaced, final) ↔ replaced = [] ∧ final = state := by
  constructor
  · rintro ⟨⟩
    exact ⟨rfl, rfl⟩
  · rintro ⟨rfl, rfl⟩
    rfl

theorem traverse_cons_iff {element : α} {rest : List α} {replaced : List β} :
    traverse body state (element :: rest) = some (replaced, final) ↔
      ∃ first middle others, body state element = some (first, middle) ∧
        traverse body middle rest = some (others, final) ∧ replaced = first :: others := by
  rw [traverse_cons]
  constructor
  · intro finished
    cases firstDone : body state element with
    | none =>
        rw [firstDone] at finished
        cases finished
    | some result =>
        rcases result with ⟨first, middle⟩
        rw [firstDone] at finished
        cases othersDone : traverse body middle rest with
        | none =>
            simp only [othersDone] at finished
            cases finished
        | some result =>
            rcases result with ⟨others, last⟩
            simp only [othersDone] at finished
            cases finished
            exact ⟨first, middle, others, rfl, othersDone, rfl⟩
  · rintro ⟨first, middle, others, firstDone, othersDone, rfl⟩
    simp only [firstDone, othersDone]

/-- What every pass over an element of the list keeps, the whole loop keeps. -/
theorem traverse_invariant (invariant : σ → Prop) {elements : List α} {replaced : List β}
    (kept : ∀ element ∈ elements, ∀ {before result after}, invariant before →
      body before element = some (result, after) → invariant after)
    (initially : invariant state)
    (finished : traverse body state elements = some (replaced, final)) : invariant final := by
  induction elements generalizing state replaced with
  | nil =>
      rcases traverse_nil_iff.mp finished with ⟨rfl, rfl⟩
      exact initially
  | cons element rest ih =>
      rcases traverse_cons_iff.mp finished with ⟨first, middle, others, firstDone, restDone, rfl⟩
      apply ih _ _ restDone
      · intro other otherMem before result after
        exact kept other (List.mem_cons_of_mem _ otherMem)
      · exact kept element List.mem_cons_self initially firstDone

/-- An invariant that says what is still to come and what has been replaced so far. -/
theorem traverse_progress (invariant : List α → List β → σ → Prop) {elements : List α}
    {replaced : List β}
    (kept : ∀ {element rest done before result after}, invariant (element :: rest) done before →
      body before element = some (result, after) → invariant rest (done ++ [result]) after)
    (initially : invariant elements [] state)
    (finished : traverse body state elements = some (replaced, final)) :
    invariant [] replaced final := by
  suffices goesOn : ∀ done, invariant elements done state → invariant [] (done ++ replaced) final from
    goesOn [] initially
  clear initially
  induction elements generalizing state replaced with
  | nil =>
      rcases traverse_nil_iff.mp finished with ⟨rfl, rfl⟩
      intro done holds
      simpa using holds
  | cons element rest ih =>
      rcases traverse_cons_iff.mp finished with ⟨first, middle, others, firstDone, restDone, rfl⟩
      intro done holds
      have restHolds := ih restDone _ (kept holds firstDone)
      simpa using restHolds

/-- The new elements stand to the old ones as each pass says, under an invariant of the state. -/
theorem traverse_forall₂ (invariant : σ → Prop) (relation : α → β → Prop) {elements : List α}
    {replaced : List β}
    (kept : ∀ {before element result after}, invariant before →
      body before element = some (result, after) → invariant after ∧ relation element result)
    (initially : invariant state)
    (finished : traverse body state elements = some (replaced, final)) :
    List.Forall₂ relation elements replaced := by
  induction elements generalizing state replaced with
  | nil =>
      rcases traverse_nil_iff.mp finished with ⟨rfl, rfl⟩
      exact .nil
  | cons element rest ih =>
      rcases traverse_cons_iff.mp finished with ⟨first, middle, others, firstDone, restDone, rfl⟩
      rcases kept initially firstDone with ⟨middleKeeps, related⟩
      exact .cons related (ih middleKeeps restDone)

/--
The pass over the element at an index: the loop comes to it from its first state, and goes on from
it to its last, within a reflexive and transitive relation that every pass stays in.
-/
theorem traverse_at (grows : σ → σ → Prop) (refl : ∀ state, grows state state)
    (trans : ∀ {first second third}, grows first second → grows second third → grows first third)
    (pass : ∀ {before element result after}, body before element = some (result, after) →
      grows before after)
    {elements : List α} {replaced : List β} {index : ℕ} {element : α}
    (finished : traverse body state elements = some (replaced, final))
    (found : elements[index]? = some element) :
    ∃ before after result, grows state before ∧ body before element = some (result, after) ∧
      grows after final ∧ replaced[index]? = some result := by
  have whole : ∀ {rest : List α} {others : List β} {middle : σ},
      traverse body middle rest = some (others, final) → grows middle final := by
    intro rest others middle restDone
    refine traverse_invariant (grows middle) ?_ (refl middle) restDone
    intro _ _ before result after reached done
    exact trans reached (pass done)
  induction elements generalizing state replaced index with
  | nil => simp at found
  | cons first rest ih =>
      rcases traverse_cons_iff.mp finished with ⟨result, middle, others, firstDone, restDone, rfl⟩
      cases index with
      | zero =>
          cases found
          exact ⟨state, middle, result, refl state, firstDone, whole restDone, rfl⟩
      | succ index =>
          rcases ih restDone found with ⟨before, after, other, reached, done, goesOn, atIndex⟩
          exact ⟨before, after, other, trans (pass firstDone) reached, done, goesOn, atIndex⟩

/-- The last element is replaced in the state that the others have led to. -/
theorem traverse_concat_iff {elements : List α} {last : α} {replaced : List β} :
    traverse body state (elements ++ [last]) = some (replaced, final) ↔
      ∃ others middle result, traverse body state elements = some (others, middle) ∧
        body middle last = some (result, final) ∧ replaced = others ++ [result] := by
  induction elements generalizing state replaced with
  | nil =>
      constructor
      · intro finished
        rcases traverse_cons_iff.mp finished with ⟨result, middle, _, lastDone, atEnd, rfl⟩
        rcases traverse_nil_iff.mp atEnd with ⟨rfl, rfl⟩
        exact ⟨[], state, result, rfl, lastDone, rfl⟩
      · rintro ⟨others, middle, result, atStart, lastDone, rfl⟩
        rcases traverse_nil_iff.mp atStart with ⟨rfl, rfl⟩
        exact traverse_cons_iff.mpr ⟨result, final, [], lastDone, rfl, rfl⟩
  | cons element rest ih =>
      constructor
      · intro finished
        rcases traverse_cons_iff.mp finished with ⟨first, middle, _, firstDone, restDone, rfl⟩
        rcases ih.mp restDone with ⟨others, before, result, othersDone, lastDone, rfl⟩
        exact ⟨first :: others, before, result,
          traverse_cons_iff.mpr ⟨first, middle, others, firstDone, othersDone, rfl⟩, lastDone, rfl⟩
      · rintro ⟨_, before, result, othersDone, lastDone, rfl⟩
        rcases traverse_cons_iff.mp othersDone with ⟨first, middle, others, firstDone, restDone, rfl⟩
        exact traverse_cons_iff.mpr ⟨first, middle, _, firstDone,
          ih.mpr ⟨others, before, result, restDone, lastDone, rfl⟩, rfl⟩

/-- Where each pass acts on a view of the state, the loop folds its elements into the view. -/
theorem traverse_foldl {ν : Type*} (invariant : σ → Prop) (view : σ → ν) (step : ν → α → ν)
    {elements : List α} {replaced : List β}
    (kept : ∀ {element before result after}, invariant before →
      body before element = some (result, after) →
        invariant after ∧ view after = step (view before) element)
    (initially : invariant state)
    (finished : traverse body state elements = some (replaced, final)) :
    invariant final ∧ view final = elements.foldl step (view state) := by
  induction elements generalizing state replaced with
  | nil =>
      rcases traverse_nil_iff.mp finished with ⟨_, rfl⟩
      exact ⟨initially, rfl⟩
  | cons element rest ih =>
      rcases traverse_cons_iff.mp finished with ⟨first, middle, others, firstDone, restDone, _⟩
      rcases kept initially firstDone with ⟨middleHolds, viewed⟩
      rw [List.foldl_cons, ← viewed]
      exact ih middleHolds restDone

/-- A property that the loop brings about is brought about by one of its passes. -/
theorem traverse_flips (property : σ → Prop) {elements : List α} {replaced : List β}
    (notBefore : ¬property state) (after : property final)
    (finished : traverse body state elements = some (replaced, final)) :
    ∃ (index : ℕ) (element : α) (before after : σ) (result : β),
      elements[index]? = some element ∧ body before element = some (result, after) ∧
        ¬property before ∧ property after ∧ replaced[index]? = some result := by
  induction elements generalizing state replaced with
  | nil =>
      rcases traverse_nil_iff.mp finished with ⟨_, rfl⟩
      exact (notBefore after).elim
  | cons first rest ih =>
      rcases traverse_cons_iff.mp finished with ⟨result, middle, others, firstDone, restDone, rfl⟩
      by_cases already : property middle
      · exact ⟨0, first, state, middle, result, rfl, firstDone, notBefore, already, rfl⟩
      · rcases ih already restDone with ⟨index, element, before, later, other, found, done, facts⟩
        exact ⟨index + 1, element, before, later, other, found, done, facts⟩

/--
A loop whose passes either leave the state as it is or change it for good: it has left the state
as it was exactly if every element is idle in the state it started from.
-/
theorem traverse_idle_or_changed (same changed : σ → σ → Prop) (idle : σ → α → Prop)
    (refl : ∀ state, same state state)
    (trans : ∀ {first second third}, same first second → same second third → same first third)
    (sameChanged : ∀ {first second third}, same first second → changed second third →
      changed first third)
    (congr : ∀ {first second element}, same first second → (idle second element ↔ idle first element))
    (keeps : ∀ {start before element result after}, changed start before →
      body before element = some (result, after) → changed start after)
    (pass : ∀ {before element result after}, body before element = some (result, after) →
      (idle before element ∧ same before after) ∨ (¬idle before element ∧ changed before after))
    {elements : List α} {replaced : List β}
    (finished : traverse body state elements = some (replaced, final)) :
    ((∀ element ∈ elements, idle state element) ∧ same state final) ∨
      (¬(∀ element ∈ elements, idle state element) ∧ changed state final) := by
  induction elements generalizing state replaced with
  | nil =>
      rcases traverse_nil_iff.mp finished with ⟨_, rfl⟩
      exact .inl ⟨nofun, refl final⟩
  | cons element rest ih =>
      rcases traverse_cons_iff.mp finished with ⟨first, middle, others, firstDone, restDone, _⟩
      rcases pass firstDone with ⟨isIdle, isSame⟩ | ⟨notIdle, isChanged⟩
      · have restIdle : (∀ other ∈ rest, idle middle other) ↔ ∀ other ∈ rest, idle state other := by
          constructor
          · exact fun idles other otherMem => (congr isSame).mp (idles other otherMem)
          · exact fun idles other otherMem => (congr isSame).mpr (idles other otherMem)
        rcases ih restDone with ⟨idles, restSame⟩ | ⟨notIdles, restChanged⟩
        · refine .inl ⟨?_, trans isSame restSame⟩
          exact List.forall_mem_cons.mpr ⟨isIdle, restIdle.mp idles⟩
        · refine .inr ⟨?_, sameChanged isSame restChanged⟩
          intro idles
          exact notIdles (restIdle.mpr (List.forall_mem_cons.mp idles).2)
      · refine .inr ⟨fun idles => notIdle (idles element List.mem_cons_self), ?_⟩
        exact traverse_invariant (changed state) (fun _ _ {_ _ _} => keeps) isChanged restDone

/--
A second loop that goes over what a first one has made: they do what they would do element by element,
each pass of the second after that of the first.
-/
theorem traverse_relay {τ γ : Type*} {relay : τ → β → Option (γ × τ)}
    (invariant : List α → List γ → σ → τ → Prop)
    (pass : ∀ {element rest done state seen}, invariant (element :: rest) done state seen →
      ∃ word after result came, body state element = some (word, after) ∧
        relay seen word = some (result, came) ∧ invariant rest (done ++ [result]) after came)
    {elements : List α} {seen : τ} (initially : invariant elements [] state seen) :
    ∃ words after results came, traverse body state elements = some (words, after) ∧
      traverse relay seen words = some (results, came) ∧ invariant [] results after came := by
  suffices goesOn : ∀ done, invariant elements done state seen →
      ∃ words after results came, traverse body state elements = some (words, after) ∧
        traverse relay seen words = some (results, came) ∧
          invariant [] (done ++ results) after came from goesOn [] initially
  clear initially
  induction elements generalizing state seen with
  | nil =>
      intro done holds
      exact ⟨[], state, [], seen, rfl, rfl, by simpa using holds⟩
  | cons element rest ih =>
      intro done holds
      rcases pass holds with ⟨word, after, result, came, firstDone, relayed, restHolds⟩
      rcases ih _ restHolds with ⟨words, final, results, last, restDone, restRelayed, atEnd⟩
      refine ⟨word :: words, final, result :: results, last, ?_, ?_, by simpa using atEnd⟩
      · exact traverse_cons_iff.mpr ⟨word, after, words, firstDone, restDone, rfl⟩
      · exact traverse_cons_iff.mpr ⟨result, came, results, relayed, restRelayed, rfl⟩

/-- A loop that leaves every element and the state as they are -/
theorem traverse_same {body : σ → α → Option (α × σ)} {elements : List α}
    (same : ∀ element ∈ elements, body state element = some (element, state)) :
    traverse body state elements = some (elements, state) := by
  induction elements with
  | nil => rfl
  | cons element rest ih =>
      rcases List.forall_mem_cons.mp same with ⟨first, others⟩
      exact traverse_cons_iff.mpr ⟨element, state, rest, first, ih others, rfl⟩

end Loop
