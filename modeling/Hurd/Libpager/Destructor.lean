import Hurd.Libpager.Handlers

/-!
# The destructor

`~pager` goes through `clients` and drops each client, which takes the client out of the set that
the loop is going through.  The iterator of the loop then stands on an element that has been
erased, and the language does not say what `++` does with it.  So the loop comes to a defined end
only for a pager that has no clients.
-/

namespace Hurd.Libpager

/-- How the loop of `~pager` ends. -/
inductive LoopEnd
  /-- An assert of `drop_client` fails. -/
  | aborts
  /-- The iterator is advanced after the client it stands on has been erased. -/
  | advancesErased (client : MachPort)
  /-- The loop has not come to the end of the set. -/
  | goesOn
  | ends (pager : Pager) (dropped : List MachPort)

namespace Pager

/-- The loop of `~pager`, from where its iterator stands. -/
def dropFrom (results : MachPort → Callbacks) :
    ℕ → Option MachPort → List MachPort → Pager → LoopEnd
  | _, none, dropped, pager => .ends pager dropped
  | 0, some _, _, _ => .goesOn
  | passes + 1, some client, dropped, pager =>
      match pager.dropClient client (results client) with
      | none => .aborts
      | some next =>
          match next.clients.advance client with
          | none => .advancesErased client
          | some position => dropFrom results passes position (dropped ++ [client]) next

/-- `for (auto cl: clients) drop_client(cl, "~pager", pager_lock)` -/
def dropClients (pager : Pager) (results : MachPort → Callbacks) : LoopEnd :=
  dropFrom results pager.clients.size pager.clients.first [] pager

/-- Every client is dropped once, and neither clients nor locks are left. -/
def EndsClean (pager : Pager) (results : MachPort → Callbacks) : Prop :=
  ∃ final dropped, pager.dropClients results = .ends final dropped ∧
    dropped.Perm pager.clients.toList ∧ final.clients = ∅ ∧ final.outstandingLocks = ∅

variable {pager next : Pager} {client : MachPort} {results : MachPort → Callbacks}

theorem dropClient_erases {results : Callbacks} (dropped : pager.dropClient client results = some next) :
    next.clients.advance client = none := by
  rcases Option.map_eq_some_iff.mp dropped with ⟨middle, _, rfl⟩
  simp [OrdSet.advance]

/-- The first pass of the loop leaves its iterator on a client that is no longer in the set. -/
theorem dropClients_of_first (isFirst : pager.clients.first = some client) :
    pager.dropClients results = .aborts ∨
      pager.dropClients results = .advancesErased client := by
  have size : ∃ passes, pager.clients.size = passes + 1 := by
    unfold OrdSet.first at isFirst
    unfold OrdSet.size
    cases listed : pager.clients.toList with
    | nil => simp [listed] at isFirst
    | cons head tail => exact ⟨tail.length, rfl⟩
  rcases size with ⟨passes, size⟩
  unfold dropClients
  rw [size, isFirst, dropFrom]
  cases dropped : pager.dropClient client (results client) with
  | none => exact .inl rfl
  | some next =>
      right
      simp only [dropClient_erases dropped]

/-- When the destructor drops every client and ends clean. -/
theorem endsClean_iff (pager : Pager) (results : MachPort → Callbacks) :
    pager.EndsClean results ↔ pager.clients = ∅ ∧ pager.outstandingLocks = ∅ := by
  constructor
  · rintro ⟨final, dropped, ended, _, _, noLocks⟩
    cases isFirst : pager.clients.first with
    | some client =>
        rcases dropClients_of_first isFirst with aborted | advanced
        · rw [aborted] at ended
          cases ended
        · rw [advanced] at ended
          cases ended
    | none =>
        unfold dropClients at ended
        rw [isFirst, dropFrom] at ended
        cases ended
        exact ⟨OrdSet.eq_empty_of_first isFirst, noLocks⟩
  · rintro ⟨noClients, noLocks⟩
    refine ⟨pager, [], ?_, ?_, noClients, noLocks⟩
    · unfold dropClients
      rw [noClients]
      rfl
    · rw [noClients]
      rfl

/-- A client that has only been initialized is enough. -/
theorem initialized_not_endsClean :
    ∃ pager, Transition.run handle [(.objectInit 5 4096, fun _ => {})]
        (create 4096 (by decide) false 0 false) = some pager ∧ pager.writewait = [] ∧
      ¬pager.EndsClean fun _ _ => {} := by
  have ran : ∃ pager, Transition.run handle [(.objectInit 5 4096, fun _ => {})]
      (create 4096 (by decide) false 0 false) = some pager ∧ pager.writewait = [] ∧
        pager.clients.first = some 5 := ⟨_, rfl, rfl, rfl⟩
  rcases ran with ⟨pager, ran, noWrites, isFirst⟩
  refine ⟨pager, ran, noWrites, ?_⟩
  rintro ⟨final, dropped, ended, _⟩
  rcases dropClients_of_first isFirst with aborted | advanced
  · rw [aborted] at ended
    cases ended
  · rw [advanced] at ended
    cases ended

end Pager

end Hurd.Libpager
