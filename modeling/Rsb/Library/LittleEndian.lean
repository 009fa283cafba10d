import Mathlib.Algebra.Order.Group.Nat
import Mathlib.Data.UInt
import Mathlib.Tactic.Common

/-!
Little-endian byte strings of a fixed width, and the shifts and masks that
single out a byte of a number.
-/

namespace Rsb.Library.LittleEndian

/-- The lowest `w` bytes of `n`, the least significant one first. -/
def encode : ℕ → ℕ → List UInt8
  | 0, _ => []
  | w + 1, n => UInt8.ofNat n :: encode w (n / 256)

def decode : List UInt8 → ℕ
  | [] => 0
  | b :: bs => b.toNat + 256 * decode bs

theorem decode_encode {w n : ℕ} (h : n < 256 ^ w) : decode (encode w n) = n := by
  induction w generalizing n with
  | zero =>
      obtain rfl : n = 0 := by simpa using h
      rfl
  | succ w ih =>
      have hdiv : n / 256 < 256 ^ w := by
        rw [Nat.pow_succ] at h
        omega
      rw [encode, decode, ih hdiv, UInt8.toNat_ofNat']
      omega

/-- Masking a byte and shifting it down. -/
theorem and_shiftRight (n k : ℕ) : (n &&& 255 <<< k) >>> k = n / 2 ^ k % 256 := by
  rw [Nat.shiftRight_and_distrib, Nat.shiftLeft_shiftRight, Nat.shiftRight_eq_div_pow]
  exact Nat.and_two_pow_sub_one_eq_mod _ 8

/-- Bytes that are shifted to different places are added up by a bitwise or. -/
theorem or_shiftLeft {a b k : ℕ} (h : a < 2 ^ k) : a ||| b <<< k = a + b * 2 ^ k := by
  rw [Nat.or_comm, ← Nat.shiftLeft_add_eq_or_of_lt h, Nat.shiftLeft_eq, Nat.add_comm]

end Rsb.Library.LittleEndian
