import Hurd.Libpager.Page
import Mathlib.Data.Prod.Lex
import Mathlib.Data.List.GetD
import Mathlib.Data.List.Lex
import Mathlib.Order.BooleanAlgebra.Basic

/-!
# The pagemap

What the handlers do with the pagemap: they look at an entry, copy it to `tmp_pagemap_entry`,
work on the copy and assign it back.  `Interned` is the pagemap of the source, a vector of
pointers into the set of all entries, which is shared by the pagers of the process.  `InPlace`
is a plain vector of entries, where working on a page is working on its entry.
-/

namespace Hurd.Libpager

/-- A vector of pagemap entries with `tmp_pagemap_entry`. -/
class Pagemap (σ : Type) where
  /-- `pagemap[n]`, which makes the vector longer where it must -/
  touch : σ → ℕ → σ
  size : σ → ℕ
  /-- `pagemap[n]->` -/
  read : σ → ℕ → PagemapEntry
  /-- `tmp_pagemap_entry = pagemap[n]` -/
  load : σ → ℕ → σ
  tmp : σ → PagemapEntry
  setTmp : σ → PagemapEntry → σ
  /-- `pagemap[n] = tmp_pagemap_entry` -/
  store : σ → ℕ → σ
  /-- Another pager of the process stores an entry. -/
  share : σ → PagemapEntry → σ

/-- What `std::tie` compares, field by field -/
abbrev PagemapKey := List ℕ ×ₗ List (ℕ ×ₗ Bool) ×ₗ Bool ×ₗ Bool ×ₗ Bool ×ₗ ℕ

namespace PagemapEntry

def key (entry : PagemapEntry) : PagemapKey :=
  toLex (entry.accesslist.toList,
    toLex (entry.waitlist.map fun waiting =>
        toLex (waiting.client, waiting.writeAccessRequested),
      toLex (entry.pagingout,
        toLex (entry.writeAccessGranted,
          toLex (entry.invalid, entry.error)))))

/-- `operator<` -/
def less (entry other : PagemapEntry) : Bool := decide (entry.key < other.key)

/-- Neither of the entries is less than the other, so that a `std::set` takes them for one. -/
def equivalent (entry other : PagemapEntry) : Bool := !entry.less other && !other.less entry

theorem key_injective {entry other : PagemapEntry} (same : entry.key = other.key) :
    entry = other := by
  rcases entry with ⟨⟨clients, sorted⟩, waitlist, _, _, _, _⟩
  rcases other with ⟨⟨otherClients, otherSorted⟩, otherWaitlist, _, _, _, _⟩
  simp only [key, EmbeddingLike.apply_eq_iff_eq, Prod.mk.injEq] at same
  rcases same with ⟨rfl, sameWaitlist, rfl, rfl, rfl, rfl⟩
  have injective : Function.Injective fun waiting : WaitlistClient =>
      toLex (waiting.client, waiting.writeAccessRequested) := by
    rintro ⟨client, write⟩ ⟨otherClient, otherWrite⟩ sameWaiting
    simp only [EmbeddingLike.apply_eq_iff_eq, Prod.mk.injEq] at sameWaiting
    rw [sameWaiting.1, sameWaiting.2]
  rw [List.map_injective_iff.mpr injective sameWaitlist]

/-- No field is missing from the order: it tells any two entries apart. -/
theorem equivalent_iff {entry other : PagemapEntry} :
    entry.equivalent other = true ↔ entry = other := by
  simp only [equivalent, less, Bool.and_eq_true, Bool.not_eq_true', decide_eq_false_iff_not,
    not_lt]
  constructor
  · rintro ⟨isLe, isGe⟩
    exact key_injective (le_antisymm isGe isLe)
  · rintro rfl
    exact ⟨le_rfl, le_rfl⟩

end PagemapEntry

/-- `vector::resize`, which never makes a vector shorter here -/
def resizeWith {α : Type} (list : List α) (size : ℕ) (fresh : α) : List α :=
  list ++ List.replicate (size - list.length) fresh

theorem getD_resizeWith {α : Type} (list : List α) (size index : ℕ) (fresh : α) :
    (resizeWith list size fresh).getD index fresh = list.getD index fresh := by
  rw [List.getD_eq_getElem?_getD, List.getD_eq_getElem?_getD, resizeWith, List.getElem?_append]
  split
  · rfl
  · rename_i beyond
    rw [List.getElem?_eq_none (not_lt.mp beyond), List.getElem?_replicate]
    split <;> rfl

theorem length_resizeWith {α : Type} (list : List α) (size : ℕ) (fresh : α) :
    (resizeWith list size fresh).length = max list.length size := by
  rw [resizeWith, List.length_append, List.length_replicate]
  omega

theorem lt_length_resizeWith {α : Type} (list : List α) (number : ℕ) (fresh : α) :
    number < (resizeWith list (number + 1) fresh).length := by
  rw [length_resizeWith]
  omega

theorem head?_emptyEntry : ([{}] : List PagemapEntry).head? = some {} := rfl

theorem inside_empty : ∀ pointer ∈ ([] : List ℕ), pointer < ([{}] : List PagemapEntry).length :=
  List.forall_mem_nil _

/-- The pagemap as pointers into `pagemap_set` -/
structure Interned where
  /-- `pagemap_set`; the address of a node is the number of nodes allocated before it. -/
  nodes : List PagemapEntry := [{}]
  pointers : List ℕ := []
  tmp : PagemapEntry := {}
  /-- What the moves leave in `tmp_pagemap_entry`, one after the other -/
  leftovers : ℕ → PagemapEntry := fun _ => {}
  moves : ℕ := 0
  startsEmpty : nodes.head? = some {} := by exact head?_emptyEntry
  inside : ∀ pointer ∈ pointers, pointer < nodes.length := by exact inside_empty

namespace Interned

/-- `empty_page_ptr` -/
def emptyPagePtr : ℕ := 0

theorem nodes_length_pos (map : Interned) : emptyPagePtr < map.nodes.length := by
  have startsEmpty := map.startsEmpty
  rw [List.head?_eq_some_iff] at startsEmpty
  rcases startsEmpty with ⟨rest, isCons⟩
  simp [isCons, emptyPagePtr]

/-- `pagemap_set.find` -/
def find? (map : Interned) (data : PagemapEntry) : Option ℕ :=
  map.nodes.findIdx? data.equivalent

theorem find?_lt {map : Interned} {data : PagemapEntry} {pointer : ℕ}
    (found : map.find? data = some pointer) : pointer < map.nodes.length :=
  (List.findIdx?_eq_some_iff_findIdx_eq.mp found).1

def touch (map : Interned) (number : ℕ) : Interned :=
  { map with
    pointers := resizeWith map.pointers (number + 1) emptyPagePtr
    inside := by
      intro pointer isPointer
      rcases List.mem_append.mp isPointer with isOld | isNew
      · exact map.inside pointer isOld
      · rw [List.eq_of_mem_replicate isNew]
        exact map.nodes_length_pos }

def deref (map : Interned) (pointer : ℕ) : PagemapEntry := map.nodes.getD pointer {}

def read (map : Interned) (number : ℕ) : PagemapEntry :=
  map.deref (map.pointers.getD number emptyPagePtr)

def load (map : Interned) (number : ℕ) : Interned :=
  { map.touch number with tmp := (map.touch number).read number }

def setTmp (map : Interned) (entry : PagemapEntry) : Interned := { map with tmp := entry }

def point (map : Interned) (number pointer : ℕ) (isNode : pointer < map.nodes.length) :
    Interned :=
  { map with
    pointers := map.pointers.set number pointer
    inside := by
      intro other isPointer
      rcases List.mem_or_eq_of_mem_set isPointer with isOld | rfl
      · exact map.inside other isOld
      · exact isNode }

/-- A new node of `pagemap_set` -/
def allocate (map : Interned) (data : PagemapEntry) : Interned :=
  { map with
    nodes := map.nodes ++ [data]
    startsEmpty := by rw [List.head?_append, map.startsEmpty, Option.some_or]
    inside := by
      intro pointer isPointer
      have isInside := map.inside pointer isPointer
      rw [List.length_append]
      omega }

/-- The move leaves `tmp_pagemap_entry` in an unspecified state. -/
def leave (map : Interned) : Interned :=
  { map with tmp := map.leftovers map.moves, moves := map.moves + 1 }

/-- `pagemap_entry::operator=`: the entry is moved into the set unless the set has it. -/
def store (map : Interned) (number : ℕ) : Interned :=
  let map := map.touch number
  match found : map.find? map.tmp with
  | some pointer => map.point number pointer (find?_lt found)
  | none => ((map.allocate map.tmp).point number map.nodes.length (by simp [allocate])).leave

def share (map : Interned) (data : PagemapEntry) : Interned :=
  match map.find? data with
  | some _ => map
  | none => map.allocate data

instance : Pagemap Interned where
  touch := touch
  size map := map.pointers.length
  read := read
  load := load
  tmp := tmp
  setTmp := setTmp
  store := store
  share := share

section Laws

variable (map : Interned) (number other : ℕ) (entry : PagemapEntry)

@[simp]
theorem read_touch : (map.touch number).read other = map.read other := by
  unfold read deref touch
  rw [getD_resizeWith]

@[simp]
theorem read_load : (map.load number).read other = map.read other :=
  map.read_touch number other

@[simp]
theorem tmp_load : (map.load number).tmp = map.read number :=
  map.read_touch number number

@[simp]
theorem read_setTmp : (map.setTmp entry).read other = map.read other := rfl

@[simp]
theorem tmp_setTmp : (map.setTmp entry).tmp = entry := rfl

/-- A new node changes no page, for no page pointed to where it is. -/
@[simp]
theorem read_allocate : (map.allocate entry).read other = map.read other := by
  have inside : map.pointers.getD other emptyPagePtr < map.nodes.length := by
    rw [List.getD_eq_getElem?_getD]
    cases isPointer : map.pointers[other]? with
    | none => exact map.nodes_length_pos
    | some pointer => exact map.inside pointer (List.mem_of_getElem? isPointer)
  simp only [read, deref, allocate]
  exact List.getD_append _ _ _ _ inside

theorem read_point {pointer : ℕ} (isNode : pointer < map.nodes.length)
    (isIndex : number < map.pointers.length) :
    (map.point number pointer isNode).read other =
      if other = number then map.deref pointer else map.read other := by
  unfold read point deref
  simp only [List.getD_eq_getElem?_getD, List.getElem?_set]
  by_cases isSame : number = other
  · subst isSame
    simp [isIndex]
  · simp [isSame, Ne.symm isSame]

theorem deref_find? {pointer : ℕ} (found : map.find? entry = some pointer) :
    map.deref pointer = entry := by
  rcases List.findIdx?_eq_some_iff_getElem.mp found with ⟨isNode, isEquivalent, -⟩
  rw [deref, List.getD_eq_getElem _ _ isNode]
  exact (PagemapEntry.equivalent_iff.mp isEquivalent).symm

/-- A page reads what has been stored in it, and the other pages read what they did. -/
@[simp]
theorem read_store :
    (map.store number).read other = if other = number then map.tmp else map.read other := by
  have isIndex : number < (map.touch number).pointers.length :=
    lt_length_resizeWith map.pointers number emptyPagePtr
  unfold store
  dsimp only
  split
  · rename_i pointer found
    rw [read_point _ _ _ _ isIndex, deref_find? _ _ found, read_touch]
    rfl
  · have isLast : ((map.touch number).allocate (map.touch number).tmp).deref
        (map.touch number).nodes.length = map.tmp := by
      simp [deref, allocate, touch]
    have isNode : (map.touch number).nodes.length <
        ((map.touch number).allocate (map.touch number).tmp).nodes.length := by
      simp [allocate]
    have isRead := read_point _ number other isNode isIndex
    rw [isLast, read_allocate, read_touch] at isRead
    exact isRead

@[simp]
theorem read_share : (map.share entry).read other = map.read other := by
  unfold share
  split
  · rfl
  · exact map.read_allocate other entry

/-- A page past the end of the vector reads as the empty page. -/
theorem read_of_length_le (isBeyond : map.pointers.length ≤ other) : map.read other = {} := by
  have startsEmpty := map.startsEmpty
  rw [List.head?_eq_some_iff] at startsEmpty
  rcases startsEmpty with ⟨rest, isCons⟩
  simp [read, deref, List.getD_eq_getElem?_getD, List.getElem?_eq_none isBeyond, isCons,
    emptyPagePtr]

end Laws

end Interned

/-- A vector of entries, the one at `cursor` being worked on -/
structure InPlace where
  records : List PagemapEntry := []
  cursor : ℕ := 0

namespace InPlace

def touch (map : InPlace) (number : ℕ) : InPlace :=
  { map with records := resizeWith map.records (number + 1) {} }

def read (map : InPlace) (number : ℕ) : PagemapEntry := map.records.getD number {}

instance : Pagemap InPlace where
  touch := touch
  size map := map.records.length
  read := read
  load map number := { map.touch number with cursor := number }
  tmp map := map.read map.cursor
  setTmp map entry := { map with records := map.records.set map.cursor entry }
  store map _ := map
  share map _ := map

end InPlace

end Hurd.Libpager
