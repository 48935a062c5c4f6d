import Mathlib.Logic.Function.Basic
import Mathlib.Tactic.Common

/-!
# Two maps that are inverse to each other

A relation between keys of two kinds, kept as a map in either direction.  Adding a pair whose
parts are both new, and removing a pair, keep the two maps inverse.
-/

universe u v

namespace Maps

variable {α : Type u} {β : Type v}

/-- Each of the two maps is the inverse of the other. -/
def Inverse (forward : α → Option β) (backward : β → Option α) : Prop :=
  ∀ key value, forward key = some value ↔ backward value = some key

variable {forward : α → Option β} {backward : β → Option α}

theorem Inverse.empty : Inverse (fun _ : α => (none : Option β)) fun _ => none := by
  intro key value
  simp

variable [DecidableEq α] [DecidableEq β]

theorem Inverse.insert (inverse : Inverse forward backward) {key : α} {value : β}
    (newKey : forward key = none) (newValue : backward value = none) :
    Inverse (Function.update forward key (some value))
      (Function.update backward value (some key)) := by
  intro other image
  by_cases sameKey : other = key
  · subst sameKey
    by_cases sameValue : image = value
    · subst sameValue
      simp
    · have notImage : backward image ≠ some other := by
        intro isImage
        rw [(inverse other image).mpr isImage] at newKey
        cases newKey
      simp [sameValue, notImage, Ne.symm sameValue]
  · by_cases sameValue : image = value
    · subst sameValue
      have notImage : forward other ≠ some image := by
        intro isImage
        rw [(inverse other image).mp isImage] at newValue
        cases newValue
      simp [sameKey, notImage, Ne.symm sameKey]
    · simp only [Function.update_of_ne sameKey, Function.update_of_ne sameValue]
      exact inverse other image

theorem Inverse.erase (inverse : Inverse forward backward) {key : α} {value : β}
    (paired : backward value = some key) :
    Inverse (Function.update forward key none) (Function.update backward value none) := by
  intro other image
  have pairedBack := (inverse key value).mpr paired
  by_cases sameKey : other = key
  · subst sameKey
    by_cases sameValue : image = value
    · subst sameValue
      simp
    · have notImage : backward image ≠ some other := by
        intro isImage
        have same := (inverse other image).mpr isImage
        rw [pairedBack] at same
        cases same
        exact sameValue rfl
      simp [sameValue, notImage]
  · by_cases sameValue : image = value
    · subst sameValue
      have notImage : forward other ≠ some image := by
        intro isImage
        have same := (inverse other image).mp isImage
        rw [paired] at same
        cases same
        exact sameKey rfl
      simp [sameKey, notImage]
    · simp only [Function.update_of_ne sameKey, Function.update_of_ne sameValue]
      exact inverse other image

/-- Erasing keys that neither map has changes nothing. -/
theorem Inverse.erase_absent (inverse : Inverse forward backward) {key : α} {value : β}
    (noKey : forward key = none) (noValue : backward value = none) :
    Inverse (Function.update forward key none) (Function.update backward value none) := by
  rw [← noKey, ← noValue, Function.update_eq_self, Function.update_eq_self]
  exact inverse

end Maps
