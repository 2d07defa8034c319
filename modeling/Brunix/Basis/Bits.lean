import Mathlib.Algebra.Ring.Nat
import Mathlib.Logic.Function.Basic
import Mathlib.Tactic.Common

/-!
# Packed bits

Two ways of keeping several values in one machine word: an array of bytes that holds one bit for each
number, and the fields of a record that each take some consecutive bits of a word. Both are described
by what they do to every single bit.
-/

namespace Basis

/-! ### Bit arrays -/

/-- Bit `p` of an array of bytes. -/
def bitOf (bytes : Nat → BitVec 8) (p : Nat) : Bool := (bytes (p / 8)).getLsbD (p % 8)

/-- `bytes[p / 8] |= 1 << (p % 8)`. -/
def orBit (bytes : Nat → BitVec 8) (p : Nat) : Nat → BitVec 8 :=
  Function.update bytes (p / 8) (bytes (p / 8) ||| (1#8 <<< (p % 8)))

theorem getLsbD_one_shiftLeft {w k i : Nat} (hk : k < w) :
    (1#w <<< k).getLsbD i = decide (i = k) := by
  rw [BitVec.getLsbD_shiftLeft, BitVec.getLsbD_one, Bool.eq_iff_iff]
  simp only [Bool.and_eq_true, Bool.not_eq_true', decide_eq_true_eq, decide_eq_false_iff_not]
  omega

theorem bitOf_orBit (bytes : Nat → BitVec 8) (p q : Nat) :
    bitOf (orBit bytes p) q = (decide (q = p) || bitOf bytes q) := by
  by_cases hbyte : q / 8 = p / 8
  · have hiff : q % 8 = p % 8 ↔ q = p := by omega
    rw [bitOf, orBit, hbyte, Function.update_self, BitVec.getLsbD_or,
      getLsbD_one_shiftLeft (Nat.mod_lt p (by omega)), decide_eq_decide.mpr hiff, Bool.or_comm,
      bitOf, hbyte]
  · rw [bitOf, orBit, Function.update_of_ne hbyte, decide_eq_false fun h : q = p => hbyte (h ▸ rfl),
      Bool.false_or, bitOf]

/-! ### Bit fields -/

theorem getLsbD_lowMask {w n i : Nat} :
    (BitVec.ofNat w (2 ^ n - 1)).getLsbD i = (decide (i < n) && decide (i < w)) := by
  rw [BitVec.getLsbD_ofNat, Nat.testBit_two_pow_sub_one, Bool.and_comm]

/-- The bits `lo, …, lo + width - 1` of a word. -/
structure BitField where
  lo : Nat
  width : Nat

namespace BitField

variable {w : Nat} (field : BitField)

def mask : BitVec w := BitVec.ofNat w (2 ^ field.width - 1) <<< field.lo

/-- An assignment to the field. It keeps the low bits of the value and the other bits of the word. -/
def set (value word : BitVec w) : BitVec w :=
  (word &&& ~~~field.mask) ||| ((value <<< field.lo) &&& field.mask)

theorem getLsbD_mask {i : Nat} (hi : i < w) :
    (field.mask : BitVec w).getLsbD i = decide (field.lo ≤ i ∧ i < field.lo + field.width) := by
  rw [mask, BitVec.getLsbD_shiftLeft, getLsbD_lowMask, Bool.eq_iff_iff]
  simp only [Bool.and_eq_true, Bool.not_eq_true', decide_eq_true_eq, decide_eq_false_iff_not]
  omega

theorem getLsbD_set (value word : BitVec w) {i : Nat} (hi : i < w) :
    (field.set value word).getLsbD i
      = if field.lo ≤ i ∧ i < field.lo + field.width then value.getLsbD (i - field.lo)
        else word.getLsbD i := by
  rw [set, BitVec.getLsbD_or, BitVec.getLsbD_and, BitVec.getLsbD_and, BitVec.getLsbD_not,
    field.getLsbD_mask hi, BitVec.getLsbD_shiftLeft]
  split <;> rename_i hfield
  · simp [hfield, hi]
  · simp [hfield, hi]

end BitField

end Basis
