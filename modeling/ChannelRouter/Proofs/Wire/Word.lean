import ChannelRouter.Wire.Word
import Mathlib.Algebra.Group.Nat.Defs

/-!
# Words are read as they are written

Writing a number as bytes and reading bytes as a number are inverse to one
another on numbers that fit.
-/

namespace ChannelRouter

namespace Word

/-- Reading back what was written gives the value, cut to the width. -/
theorem value_bytes (width number : Nat) :
    value (bytes width number) = number % 256 ^ width := by
  induction width generalizing number with
  | zero => simp [bytes, value, Nat.mod_one]
  | succ width ih =>
    have power : 256 ^ (width + 1) = 256 * 256 ^ width := by
      rw [Nat.pow_succ, Nat.mul_comm]
    rw [bytes, value, ih, power, Nat.mod_mul]
    simp

/-- Writing back what was read gives the same bytes. -/
theorem bytes_value (digits : List UInt8) :
    bytes digits.length (value digits) = digits := by
  induction digits with
  | nil => rfl
  | cons byte rest ih =>
    have byteBound := byte.toNat_lt
    have quotient : (byte.toNat + 256 * value rest) / 256 =
        value rest := by omega
    have remainder : (byte.toNat + 256 * value rest) % 256 =
        byte.toNat := by omega
    simp only [List.length_cons, value, bytes, quotient, remainder, ih]
    simp

/-- What bytes denote fits into as many bytes. -/
theorem value_lt (digits : List UInt8) :
    value digits < 256 ^ digits.length := by
  have same := value_bytes digits.length (value digits)
  rw [bytes_value] at same
  rw [same]
  exact Nat.mod_lt _ (Nat.pow_pos (by decide))

end Word

end ChannelRouter
