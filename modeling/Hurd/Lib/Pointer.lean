import Mathlib.Data.BitVec
import Mathlib.Tactic.Common

/-!
# Pointers of a machine

Pointers are numbers of a fixed width, and so is what is added to them.  The difference of two
pointers is signed.  As long as the sums stay in the lower half of the numbers, the differences are
those of the integers, wherever in memory the pointers are.
-/

namespace Pointer

variable {width : ℕ}

/-- The signed difference of a pointer and the one that it started from -/
def offset (base pointer : BitVec width) : ℤ := (pointer - base).toInt

variable {base pointer step : BitVec width}

theorem toInt_eq_toNat_of_nonneg {number : BitVec width} (notNegative : 0 ≤ number.toInt) :
    number.toInt = number.toNat := by
  rw [BitVec.toInt_eq_toNat_cond] at notNegative ⊢
  have isLt := number.isLt
  split_ifs at notNegative ⊢
  · rfl
  · omega

/-- The offset right after the start -/
theorem offset_start (small : 2 * step.toNat < 2 ^ width) :
    offset base (base + step) = step.toNat := by
  rw [offset, add_sub_cancel_left]
  exact BitVec.toInt_eq_toNat_of_lt small

/-- A step forward does not wrap around. -/
theorem offset_add (notNegative : 0 ≤ offset base pointer)
    (fits : 2 * (offset base pointer + step.toNat) < 2 ^ width) :
    offset base (pointer + step) = offset base pointer + step.toNat := by
  have moved : pointer + step - base = (pointer - base) + step := add_sub_right_comm _ _ _
  have isNat : offset base pointer = (pointer - base).toNat := toInt_eq_toNat_of_nonneg notNegative
  rw [isNat] at fits ⊢
  have fitsNat : 2 * ((pointer - base).toNat + step.toNat) < 2 ^ width := by exact_mod_cast fits
  have sum : ((pointer - base) + step).toNat = (pointer - base).toNat + step.toNat := by
    rw [BitVec.toNat_add]
    apply Nat.mod_eq_of_lt
    omega
  rw [offset, moved, BitVec.toInt_eq_toNat_of_lt (by rwa [sum]), sum]
  exact Nat.cast_add _ _

/-- A pointer is where its offset says. -/
theorem eq_add_offset (notNegative : 0 ≤ offset base pointer) :
    pointer = base + BitVec.ofNat width (offset base pointer).toNat := by
  have isNat : offset base pointer = (pointer - base).toNat := toInt_eq_toNat_of_nonneg notNegative
  rw [isNat, Int.toNat_natCast, BitVec.ofNat_toNat, BitVec.setWidth_eq, add_sub_cancel]

end Pointer
