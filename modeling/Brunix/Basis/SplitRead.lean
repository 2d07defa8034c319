import Mathlib.Order.Nat
import Mathlib.Tactic.Common

/-!
# Reading a number while it grows

A call that reads a growing number takes time, so there are two numbers its value may be compared with:
the one when the call began and the one when it returned. Calls one after the other whose values are
between the two never go backwards. A reader that takes the number digit by digit may take its two
digits from different numbers, and then the value is between the two only under a condition on the low
digits.
-/

namespace Basis

/-! ### Sequences of readings -/

section Readings

variable {α : Type} [Preorder α]

structure Reading (α : Type) where
  began : α
  returned : α
  value : α

/-- The number had the value, or passed it, during the call. -/
def Reading.Regular (r : Reading α) : Prop := r.began ≤ r.value ∧ r.value ≤ r.returned

/-- The first call returns before the second begins. -/
def Reading.Before (r r' : Reading α) : Prop := r.returned ≤ r'.began

theorem Reading.Before.value_le {r r' : Reading α} (h : r.Before r') (hr : r.Regular)
    (hr' : r'.Regular) : r.value ≤ r'.value :=
  (hr.2.trans h).trans hr'.1

theorem pairwise_value_le {readings : List (Reading α)}
    (hbefore : readings.Pairwise Reading.Before) (hregular : ∀ r ∈ readings, r.Regular) :
    readings.Pairwise fun r r' => r.value ≤ r'.value :=
  hbefore.imp_of_mem fun hr hr' h => h.value_le (hregular _ hr) (hregular _ hr')

end Readings

/-! ### Two digits from two numbers -/

/-- The high digits of one number and the low digit of another. -/
def splitDigits (base high low : Nat) : Nat := high / base * base + low % base

variable {base b c c' e : Nat}

theorem splitDigits_self : splitDigits base c c = c := Nat.div_add_mod' c base

/-- The value exceeds one of the numbers by what the low digit of the other exceeds its own. -/
theorem splitDigits_add_mod (base high low : Nat) :
    splitDigits base high low + high % base = high + low % base := by
  have hhigh := Nat.div_add_mod' high base
  rw [splitDigits]
  omega

theorem splitDigits_le_splitDigits (low : Nat) (h : c ≤ c') :
    splitDigits base c low ≤ splitDigits base c' low :=
  Nat.add_le_add_right (Nat.mul_le_mul_right base (Nat.div_le_div_right h)) _

theorem splitDigits_regular_of_low_first (hb : b ≤ c) (hc : c ≤ c') (he : c' ≤ e) :
    (⟨b, e, splitDigits base c' c⟩ : Reading Nat).Regular ↔ c % base ≤ c' % base + (e - c') := by
  have hlow : c ≤ splitDigits base c' c := by
    calc
      c = splitDigits base c c := splitDigits_self.symm
      _ ≤ splitDigits base c' c := splitDigits_le_splitDigits c hc
  have hsum := splitDigits_add_mod base c' c
  simp only [Reading.Regular]
  omega

theorem splitDigits_regular_of_high_first (hb : b ≤ c) (hc : c ≤ c') (he : c' ≤ e) :
    (⟨b, e, splitDigits base c c'⟩ : Reading Nat).Regular ↔ c % base ≤ c' % base + (c - b) := by
  have hhigh : splitDigits base c c' ≤ c' := by
    calc
      splitDigits base c c' ≤ splitDigits base c' c' := splitDigits_le_splitDigits c' hc
      _ = c' := splitDigits_self
  have hsum := splitDigits_add_mod base c c'
  simp only [Reading.Regular]
  omega

/-- Without a carry between the two, the low digit has only grown. -/
theorem mod_le_mod_of_div_eq (hc : c ≤ c') (hcarry : c / base = c' / base) :
    c % base ≤ c' % base := by
  have hself := Nat.div_add_mod' c base
  have hself' := Nat.div_add_mod' c' base
  rw [hcarry] at hself
  omega

end Basis
