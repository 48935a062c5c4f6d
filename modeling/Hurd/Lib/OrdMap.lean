import Mathlib.Order.Lattice
import Mathlib.Data.List.Basic
import Mathlib.Tactic.Common

/-!
# Ordered sets and maps

A set or a map over a linear order, kept as a list in strictly increasing key order.
The order is what an iteration over a C++ `std::set` or `std::map` sees, so a loop over
such a container is a recursion over the list.  The strict order is a field, so a value
with a key twice or out of order cannot be built, and a map is determined by its lookups.
-/

universe u v

/-- A finite set, listed in increasing order. -/
structure OrdSet (α : Type u) [LinearOrder α] where
  toList : List α
  sorted : toList.Pairwise (· < ·)
deriving DecidableEq

namespace OrdSet

variable {α : Type u} [LinearOrder α]

instance : Membership α (OrdSet α) where
  mem set element := element ∈ set.toList

instance (element : α) (set : OrdSet α) : Decidable (element ∈ set) :=
  inferInstanceAs (Decidable (element ∈ set.toList))

theorem mem_def {element : α} {set : OrdSet α} : element ∈ set ↔ element ∈ set.toList :=
  Iff.rfl

/-- The set without elements -/
def empty : OrdSet α := ⟨[], List.Pairwise.nil⟩

instance : EmptyCollection (OrdSet α) := ⟨empty⟩

instance : Inhabited (OrdSet α) := ⟨empty⟩

/-- `empty ()` -/
def isEmpty (set : OrdSet α) : Bool := set.toList.isEmpty

/-- `size ()` -/
def size (set : OrdSet α) : ℕ := set.toList.length

/-- Insertion into an increasing list, leaving it alone when the element is there. -/
def insertList (element : α) : List α → List α
  | [] => [element]
  | head :: tail =>
      if element < head then element :: head :: tail
      else if element = head then head :: tail
      else head :: insertList element tail

theorem mem_insertList {element other : α} {list : List α} :
    other ∈ insertList element list ↔ other = element ∨ other ∈ list := by
  induction list with
  | nil => simp [insertList]
  | cons head tail ih =>
      simp only [insertList]
      split_ifs with less same
      · simp
      · subst same
        simp
      · simp only [List.mem_cons, ih]
        tauto

theorem insertList_perm {element : α} {list : List α} (notIn : element ∉ list) :
    (insertList element list).Perm (element :: list) := by
  induction list with
  | nil => exact .rfl
  | cons head tail ih =>
      rw [List.mem_cons, not_or] at notIn
      simp only [insertList]
      split_ifs with less same
      · exact .rfl
      · exact (notIn.1 same).elim
      · exact ((ih notIn.2).cons head).trans (.swap element head tail)

theorem sorted_insertList (element : α) {list : List α} (sorted : list.Pairwise (· < ·)) :
    (insertList element list).Pairwise (· < ·) := by
  induction list with
  | nil => simp [insertList]
  | cons head tail ih =>
      rw [List.pairwise_cons] at sorted
      simp only [insertList]
      split_ifs with less same
      · refine List.pairwise_cons.mpr ⟨?_, List.pairwise_cons.mpr sorted⟩
        intro other otherMem
        rcases List.mem_cons.mp otherMem with rfl | otherMem
        · exact less
        · exact less.trans (sorted.1 other otherMem)
      · exact List.pairwise_cons.mpr sorted
      · refine List.pairwise_cons.mpr ⟨?_, ih sorted.2⟩
        intro other otherMem
        rcases mem_insertList.mp otherMem with rfl | otherMem
        · exact lt_of_le_of_ne (not_lt.mp less) (Ne.symm same)
        · exact sorted.1 other otherMem

/-- `insert`, which leaves the set alone when the element is there -/
def insert (element : α) (set : OrdSet α) : OrdSet α :=
  ⟨insertList element set.toList, sorted_insertList element set.sorted⟩

/-- `erase` of an element -/
def erase (element : α) (set : OrdSet α) : OrdSet α :=
  ⟨set.toList.filter (· ≠ element), set.sorted.sublist List.filter_sublist⟩

/-- `begin ()`: the first element, or the end. -/
def first (set : OrdSet α) : Option α := set.toList.head?

/-- `++` for an iterator that stands on an element; `none` if the element has been erased. -/
def advance (set : OrdSet α) (element : α) : Option (Option α) :=
  if element ∈ set then some (set.toList.find? fun other => element < other) else none

theorem eq_empty_of_first {set : OrdSet α} (isFirst : set.first = none) : set = ∅ := by
  rcases set with ⟨list, sorted⟩
  have isNil : list = [] := List.head?_eq_none_iff.mp isFirst
  subst isNil
  rfl

@[simp]
theorem not_mem_empty (element : α) : element ∉ (∅ : OrdSet α) :=
  List.not_mem_nil

@[simp]
theorem mem_insert {element other : α} {set : OrdSet α} :
    other ∈ set.insert element ↔ other = element ∨ other ∈ set :=
  mem_insertList

@[simp]
theorem mem_erase {element other : α} {set : OrdSet α} :
    other ∈ set.erase element ↔ other ∈ set ∧ other ≠ element := by
  simp [mem_def, erase]

theorem nodup (set : OrdSet α) : set.toList.Nodup :=
  set.sorted.imp ne_of_lt

theorem isEmpty_iff {set : OrdSet α} : set.isEmpty = true ↔ ∀ element, element ∉ set := by
  simp [isEmpty, mem_def, List.eq_nil_iff_forall_not_mem]

theorem isEmpty_eq_false_iff {set : OrdSet α} :
    set.isEmpty = false ↔ ∃ element, element ∈ set := by
  rw [← Bool.not_eq_true, isEmpty_iff]
  simp

@[simp]
theorem isEmpty_insert (element : α) (set : OrdSet α) : (set.insert element).isEmpty = false :=
  isEmpty_eq_false_iff.mpr ⟨element, by simp⟩

/-- A set has at most one element when any two of its elements are equal. -/
theorem size_le_one_iff {set : OrdSet α} :
    set.size ≤ 1 ↔ ∀ element ∈ set, ∀ other ∈ set, element = other := by
  rcases set with ⟨list, sorted⟩
  simp only [size, mem_def]
  match list, sorted with
  | [], _ => simp
  | [only], _ => simp
  | first :: second :: rest, sorted =>
      constructor
      · intro short
        simp at short
      · intro allEq
        have distinct : first < second := (List.pairwise_cons.mp sorted).1 second (by simp)
        exact absurd (allEq first (by simp) second (by simp)) distinct.ne

end OrdSet

/-- A finite map, listed in increasing key order. -/
structure OrdMap (κ : Type u) (υ : Type v) [LinearOrder κ] where
  entries : List (κ × υ)
  sorted : entries.Pairwise (fun left right => left.1 < right.1)
deriving DecidableEq

namespace OrdMap

variable {κ : Type u} {υ : Type v} [LinearOrder κ]

/-- The map without entries -/
def empty : OrdMap κ υ := ⟨[], List.Pairwise.nil⟩

instance : EmptyCollection (OrdMap κ υ) := ⟨empty⟩

instance : Inhabited (OrdMap κ υ) := ⟨empty⟩

/-- The value of the first entry with a key. -/
def lookupEntry (key : κ) : List (κ × υ) → Option υ
  | [] => none
  | head :: tail => if key = head.1 then some head.2 else lookupEntry key tail

/-- The value stored under a key. -/
def find? (map : OrdMap κ υ) (key : κ) : Option υ :=
  lookupEntry key map.entries

/-- The keys in increasing order -/
def keys (map : OrdMap κ υ) : List κ := map.entries.map Prod.fst

/-- `empty ()` -/
def isEmpty (map : OrdMap κ υ) : Bool := map.entries.isEmpty

/-- Insertion into an increasing list, replacing the value of a key that is there. -/
def insertEntry (key : κ) (value : υ) : List (κ × υ) → List (κ × υ)
  | [] => [(key, value)]
  | head :: tail =>
      if key < head.1 then (key, value) :: head :: tail
      else if key = head.1 then (key, value) :: tail
      else head :: insertEntry key value tail

theorem key_of_mem_insertEntry {key : κ} {value : υ} {entry : κ × υ} {entries : List (κ × υ)}
    (entryMem : entry ∈ insertEntry key value entries) : entry.1 = key ∨ entry ∈ entries := by
  induction entries with
  | nil =>
      simp only [insertEntry, List.mem_singleton] at entryMem
      exact Or.inl (by rw [entryMem])
  | cons head tail ih =>
      simp only [insertEntry] at entryMem
      split_ifs at entryMem with less same
      · rcases List.mem_cons.mp entryMem with rfl | entryMem
        · exact Or.inl rfl
        · exact Or.inr entryMem
      · rcases List.mem_cons.mp entryMem with rfl | entryMem
        · exact Or.inl rfl
        · exact Or.inr (List.mem_cons_of_mem _ entryMem)
      · rcases List.mem_cons.mp entryMem with rfl | entryMem
        · exact Or.inr List.mem_cons_self
        · exact (ih entryMem).imp id (List.mem_cons_of_mem _)

/-- An insertion leaves the keys in increasing order. -/
theorem sorted_insertEntry (key : κ) (value : υ) {entries : List (κ × υ)}
    (sorted : entries.Pairwise (fun left right => left.1 < right.1)) :
    (insertEntry key value entries).Pairwise (fun left right => left.1 < right.1) := by
  induction entries with
  | nil => simp [insertEntry]
  | cons head tail ih =>
      rw [List.pairwise_cons] at sorted
      simp only [insertEntry]
      split_ifs with less same
      · refine List.pairwise_cons.mpr ⟨?_, List.pairwise_cons.mpr sorted⟩
        intro other otherMem
        rcases List.mem_cons.mp otherMem with rfl | otherMem
        · exact less
        · exact less.trans (sorted.1 other otherMem)
      · refine List.pairwise_cons.mpr ⟨?_, sorted.2⟩
        intro other otherMem
        rw [same]
        exact sorted.1 other otherMem
      · refine List.pairwise_cons.mpr ⟨?_, ih sorted.2⟩
        intro other otherMem
        rcases key_of_mem_insertEntry otherMem with keyEq | otherMem
        · rw [keyEq]
          exact lt_of_le_of_ne (not_lt.mp less) (Ne.symm same)
        · exact sorted.1 other otherMem

/-- The value of a key is set. -/
def insert (key : κ) (value : υ) (map : OrdMap κ υ) : OrdMap κ υ :=
  ⟨insertEntry key value map.entries, sorted_insertEntry key value map.sorted⟩

/-- `erase` of a key -/
def erase (key : κ) (map : OrdMap κ υ) : OrdMap κ υ :=
  ⟨map.entries.filter (fun entry => entry.1 ≠ key), map.sorted.sublist List.filter_sublist⟩

@[simp]
theorem find?_empty (key : κ) : (∅ : OrdMap κ υ).find? key = none := rfl

/-- What is found after an insertion -/
theorem lookupEntry_insertEntry (key other : κ) (value : υ) (entries : List (κ × υ)) :
    lookupEntry other (insertEntry key value entries) =
      if other = key then some value else lookupEntry other entries := by
  induction entries with
  | nil => simp [insertEntry, lookupEntry]
  | cons head tail ih =>
      by_cases less : key < head.1
      · simp [insertEntry, less, lookupEntry]
      · by_cases same : key = head.1
        · by_cases otherEq : other = head.1 <;> simp [insertEntry, same, lookupEntry, otherEq]
        · by_cases otherEq : other = key
          · subst otherEq
            simp [insertEntry, less, same, lookupEntry, ih]
          · simp [insertEntry, less, same, lookupEntry, ih, otherEq]

@[simp]
theorem find?_insert (key other : κ) (value : υ) (map : OrdMap κ υ) :
    (map.insert key value).find? other = if other = key then some value else map.find? other :=
  lookupEntry_insertEntry key other value map.entries

@[simp]
theorem find?_erase (key other : κ) (map : OrdMap κ υ) :
    (map.erase key).find? other = if other = key then none else map.find? other := by
  simp only [find?, erase]
  induction map.entries with
  | nil => simp [lookupEntry]
  | cons head tail ih =>
      simp only [List.filter_cons]
      by_cases headEq : head.1 = key
      · by_cases same : other = key
        · simpa [headEq, same, lookupEntry] using ih
        · simpa [headEq, same, lookupEntry] using ih
      · by_cases same : other = head.1
        · simp [headEq, same, lookupEntry]
        · simpa [headEq, same, lookupEntry] using ih

/-- A key is in the map if something is found under it. -/
theorem mem_keys_iff {key : κ} {map : OrdMap κ υ} :
    key ∈ map.keys ↔ (map.find? key).isSome = true := by
  simp only [keys, find?]
  induction map.entries with
  | nil => simp [lookupEntry]
  | cons head tail ih =>
      by_cases same : key = head.1
      · simp [same, lookupEntry]
      · rw [List.map_cons, List.mem_cons, ih, lookupEntry, if_neg same]
        simp [same]

theorem keys_nodup (map : OrdMap κ υ) : map.keys.Nodup :=
  List.pairwise_map.mpr (map.sorted.imp ne_of_lt)

theorem isEmpty_iff {map : OrdMap κ υ} : map.isEmpty = true ↔ ∀ key, map.find? key = none := by
  constructor
  · intro none key
    simp [find?, List.isEmpty_iff.mp none, lookupEntry]
  · intro absent
    rcases map with ⟨_ | ⟨head, tail⟩, sorted⟩
    · rfl
    · have headAbsent := absent head.1
      simp [find?, lookupEntry] at headAbsent

/-- An entry is in the map if its value is found under its key. -/
theorem mem_entries_iff {key : κ} {value : υ} {map : OrdMap κ υ} :
    (key, value) ∈ map.entries ↔ map.find? key = some value := by
  rcases map with ⟨entries, sorted⟩
  simp only [find?]
  induction entries with
  | nil => simp [lookupEntry]
  | cons head tail ih =>
      rcases List.pairwise_cons.mp sorted with ⟨before, sortedTail⟩
      rw [lookupEntry, List.mem_cons]
      split_ifs with same
      · subst same
        have notLater : (head.1, value) ∉ tail :=
          fun isLater => lt_irrefl head.1 (before (head.1, value) isLater)
        simp [notLater, Prod.ext_iff, eq_comm]
      · have notHead : (key, value) ≠ head := fun isHead => same (congrArg Prod.fst isHead)
        simp [notHead, ih sortedTail]

/-- Maps that find the same under every key are the same. -/
theorem eq_of_find? {first second : OrdMap κ υ}
    (same : ∀ key, first.find? key = second.find? key) : first = second := by
  have distinct : ∀ map : OrdMap κ υ, map.entries.Nodup :=
    fun map => map.sorted.imp fun less isEqual => less.ne (congrArg Prod.fst isEqual)
  have perm : first.entries.Perm second.entries := by
    refine (List.perm_ext_iff_of_nodup (distinct first) (distinct second)).mpr ?_
    rintro ⟨key, value⟩
    rw [mem_entries_iff, mem_entries_iff, same]
  have sameEntries : first.entries = second.entries :=
    perm.eq_of_pairwise (fun _ _ _ _ less greater => absurd (less.trans greater) (lt_irrefl _))
      first.sorted second.sorted
  cases first
  cases second
  cases sameEntries
  rfl

theorem keys_sorted (map : OrdMap κ υ) : map.keys.Pairwise (· < ·) :=
  List.pairwise_map.mpr map.sorted

/-- The keys past a key, where only this key may have been inserted or erased. -/
theorem filter_keys_eq {first second : OrdMap κ υ} {key : κ}
    (same : ∀ other, other ≠ key → first.find? other = second.find? other) :
    first.keys.filter (key < ·) = second.keys.filter (key < ·) := by
  have perm : (first.keys.filter (key < ·)).Perm (second.keys.filter (key < ·)) := by
    refine (List.perm_ext_iff_of_nodup (first.keys_nodup.filter _)
      (second.keys_nodup.filter _)).mpr fun other => ?_
    simp only [List.mem_filter, decide_eq_true_eq]
    refine and_congr_left fun isLater => ?_
    rw [mem_keys_iff, mem_keys_iff, same other (ne_of_gt isLater)]
  exact perm.eq_of_pairwise
    (fun _ _ _ _ less greater => absurd (less.trans greater) (lt_irrefl _))
    (first.keys_sorted.filter _) (second.keys_sorted.filter _)

/-- The keys past a key begin where the first of them is. -/
theorem dropWhile_keys {map : OrdMap κ υ} {key next : κ} {rest : List κ}
    (later : map.keys.filter (key < ·) = next :: rest) :
    map.keys.dropWhile (· ≠ next) = next :: rest := by
  have sorted := map.keys_sorted
  generalize map.keys = keys at later sorted
  induction keys with
  | nil => cases later
  | cons head tail ih =>
      rcases List.pairwise_cons.mp sorted with ⟨before, sortedTail⟩
      by_cases isLater : key < head
      · have all : tail.filter (key < ·) = tail :=
          List.filter_eq_self.mpr fun other otherMem =>
            decide_eq_true (isLater.trans (before other otherMem))
        rw [List.filter_cons_of_pos (by simpa using isLater), all] at later
        cases later
        simp
      · rw [List.filter_cons_of_neg (by simpa using isLater)] at later
        have isNext : next ∈ tail.filter (key < ·) := by rw [later]; exact List.mem_cons_self
        have notHead : head ≠ next := by
          rintro rfl
          exact isLater (by simpa using (List.mem_filter.mp isNext).2)
        rw [List.dropWhile_cons_of_pos (by simpa using notHead)]
        exact ih later sortedTail

/-- The keys past a key are the end of the keys. -/
theorem suffix_keys {map : OrdMap κ υ} {key : κ} {rest : List κ}
    (later : map.keys.filter (key < ·) = rest) : rest <:+ map.keys := by
  cases rest with
  | nil => exact List.nil_suffix
  | cons next rest =>
      rw [← dropWhile_keys later]
      exact List.dropWhile_suffix _

/-- The end of the keys from one of them on is the keys past it. -/
theorem filter_keys_of_suffix {map : OrdMap κ υ} {key : κ} {rest : List κ}
    (isSuffix : key :: rest <:+ map.keys) : map.keys.filter (key < ·) = rest := by
  rcases isSuffix with ⟨earlier, isKeys⟩
  have sorted := map.keys_sorted
  rw [← isKeys, List.pairwise_append, List.pairwise_cons] at sorted
  rcases sorted with ⟨-, ⟨isBefore, -⟩, earlierBefore⟩
  have noneEarlier : earlier.filter (key < ·) = [] :=
    List.filter_eq_nil_iff.mpr fun other isEarlier => by
      simpa using (earlierBefore other isEarlier key List.mem_cons_self).le
  have allLater : rest.filter (key < ·) = rest :=
    List.filter_eq_self.mpr fun other isLater => decide_eq_true (isBefore other isLater)
  rw [← isKeys, List.filter_append, noneEarlier, List.filter_cons_of_neg (by simp), allLater]
  rfl

end OrdMap
