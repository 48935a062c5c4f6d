import Mathlib.Algebra.Order.Sub.Basic
import Mathlib.Tactic.Common

/-!
# Blocks of memory

A memory is a function of addresses.  A block is copied from one memory to another, in one go or
piece by piece.
-/

universe u

namespace Block

variable {α : Type u}

/-- `target` with `count` cells from `place` on replaced by those of `source` from `start` on -/
def copy (source : ℕ → α) (start : ℕ) (target : ℕ → α) (place count : ℕ) : ℕ → α := fun address =>
  if place ≤ address ∧ address < place + count then source (start + (address - place))
  else target address

variable {source target : ℕ → α} {start place count address : ℕ}

@[simp]
theorem copy_zero : copy source start target place 0 = target := by
  funext address
  have notIn : ¬(place ≤ address ∧ address < place + 0) := by omega
  exact if_neg notIn

theorem copy_inside {index : ℕ} (isIndex : index < count) :
    copy source start target place count (place + index) = source (start + index) := by
  have isIn : place ≤ place + index ∧ place + index < place + count := by omega
  rw [copy, if_pos isIn, Nat.add_sub_cancel_left]

theorem copy_outside (outside : address < place ∨ place + count ≤ address) :
    copy source start target place count address = target address := by
  have notIn : ¬(place ≤ address ∧ address < place + count) := by omega
  exact if_neg notIn

/-- A block may be copied in two pieces. -/
theorem copy_copy (first second : ℕ) :
    copy source (start + first) (copy source start target place first) (place + first) second =
      copy source start target place (first + second) := by
  funext address
  by_cases inFirst : place ≤ address ∧ address < place + first
  · have inBoth : place ≤ address ∧ address < place + (first + second) := by omega
    rw [copy_outside (.inl inFirst.2)]
    simp only [copy, if_pos inFirst, if_pos inBoth]
  · by_cases inSecond : place + first ≤ address ∧ address < place + first + second
    · have inBoth : place ≤ address ∧ address < place + (first + second) := by omega
      have sameCell : start + first + (address - (place + first)) = start + (address - place) := by
        omega
      simp only [copy, if_pos inSecond, if_pos inBoth, sameCell]
    · have inNone : ¬(place ≤ address ∧ address < place + (first + second)) := by omega
      simp only [copy, if_neg inSecond, if_neg inFirst, if_neg inNone]

end Block
