import Mathlib.Data.Nat.Digits.Lemmas
import Mathlib.Tactic.Common

/-!
# Canonical numerals

A canonical numeral of a number is a non-empty list of digits, most significant first, without a
leading zero unless it is the zero. Every number has exactly one in every base from 2 on, the
reversal of the digits a division loop produces. The loop differs from `Nat.digits` at zero only,
where it produces one digit.
-/

namespace Basis

/-- The digits of a number from the least significant one, as a loop that divides until nothing is
left produces them. -/
def digitsLE (b n : Nat) : List Nat := if n = 0 then [0] else Nat.digits b n

/-- Positional value, most significant digit first. -/
def numeralValue (b : Nat) (digits : List Nat) : Nat := digits.foldl (fun acc d => acc * b + d) 0

structure IsNumeral (b n : Nat) (digits : List Nat) : Prop where
  ne_nil : digits ≠ []
  lt_base : ∀ d ∈ digits, d < b
  leading : digits.head? = some 0 → digits = [0]
  value : numeralValue b digits = n

section Numeral

variable {b n : Nat}

theorem numeralValue_eq_ofDigits (b : Nat) (digits : List Nat) :
    numeralValue b digits = Nat.ofDigits b digits.reverse := by
  rw [numeralValue, Nat.ofDigits_eq_foldr, List.foldr_reverse]
  congr
  funext acc d
  rw [Nat.add_comm, Nat.mul_comm]
  rfl

theorem digitsLE_step (hb : 1 < b) (n : Nat) :
    digitsLE b n = n % b :: (if n / b = 0 then [] else digitsLE b (n / b)) := by
  by_cases hn : n = 0
  · simp [hn, digitsLE]
  · rw [digitsLE, if_neg hn, Nat.digits_eq_cons_digits_div hb hn]
    by_cases hdiv : n / b = 0
    · simp [hdiv]
    · simp [hdiv, digitsLE]

theorem digitsLE_ne_nil (b n : Nat) : digitsLE b n ≠ [] := by
  unfold digitsLE
  split
  · simp
  · rwa [Nat.digits_ne_nil_iff_ne_zero]

theorem digitsLE_lt_base (hb : 1 < b) {d : Nat} (hd : d ∈ digitsLE b n) : d < b := by
  unfold digitsLE at hd
  split at hd
  · rw [List.mem_singleton] at hd
    omega
  · exact Nat.digits_lt_base hb hd

theorem digitsLE_length_le (hb : 1 < b) {k : Nat} (hk : 0 < k) (hn : n < b ^ k) :
    (digitsLE b n).length ≤ k := by
  unfold digitsLE
  split
  · exact hk
  · rwa [Nat.digits_length_le_iff hb]

theorem isNumeral_digitsLE (hb : 1 < b) (n : Nat) : IsNumeral b n (digitsLE b n).reverse where
  ne_nil := by simpa using digitsLE_ne_nil b n
  lt_base := fun d hd => digitsLE_lt_base hb (List.mem_reverse.mp hd)
  leading := by
    intro hhead
    by_cases hn : n = 0
    · simp [hn, digitsLE]
    · have hne : Nat.digits b n ≠ [] := Nat.digits_ne_nil_iff_ne_zero.mpr hn
      rw [digitsLE, if_neg hn, List.head?_reverse, List.getLast?_eq_some_getLast hne,
        Option.some.injEq] at hhead
      exact absurd hhead (Nat.getLast_digit_ne_zero b hn)
  value := by
    rw [numeralValue_eq_ofDigits, List.reverse_reverse, digitsLE]
    split
    · next hn => simp [hn]
    · exact Nat.ofDigits_digits b n

/-- Canonical numerals are unique. -/
theorem IsNumeral.eq_digitsLE (hb : 1 < b) {digits : List Nat} (h : IsNumeral b n digits) :
    digits = (digitsLE b n).reverse := by
  have hvalue := h.value
  rw [numeralValue_eq_ofDigits] at hvalue
  by_cases hhead : digits.head? = some 0
  · have hzero := h.leading hhead
    subst hzero
    have hn : n = 0 := by simpa using hvalue.symm
    simp [hn, digitsLE]
  · have hreverse : digits.reverse ≠ [] := by simpa using h.ne_nil
    have hlast : digits.reverse.getLast hreverse ≠ 0 := by
      intro hzero
      apply hhead
      rw [← hzero, ← List.getLast?_eq_some_getLast, List.getLast?_reverse]
    have hdigits := Nat.digits_ofDigits b hb digits.reverse
      (fun d hd => h.lt_base d (List.mem_reverse.mp hd)) (fun _ => hlast)
    rw [hvalue] at hdigits
    have hn : n ≠ 0 := by
      rw [← Nat.digits_ne_nil_iff_ne_zero (b := b), hdigits]
      exact hreverse
    rw [digitsLE, if_neg hn, hdigits, List.reverse_reverse]

/-! ### Numerals in an alphabet -/

variable {α : Type}

/-- A text that is the canonical numeral of a number, written with a given sign for each digit. -/
def Denotes (sign : Nat → α) (b n : Nat) (text : List α) : Prop :=
  ∃ digits, IsNumeral b n digits ∧ text = digits.map sign

theorem denotes_digitsLE (sign : Nat → α) (hb : 1 < b) (n : Nat) :
    Denotes sign b n ((digitsLE b n).reverse.map sign) :=
  ⟨_, isNumeral_digitsLE hb n, rfl⟩

theorem Denotes.eq_digitsLE {sign : Nat → α} (hb : 1 < b) {text : List α}
    (h : Denotes sign b n text) : text = (digitsLE b n).reverse.map sign := by
  obtain ⟨digits, hdigits, rfl⟩ := h
  rw [hdigits.eq_digitsLE hb]

private theorem digits_eq_of_map_eq {sign : Nat → α} (hsign : Set.InjOn sign {d | d < b}) :
    ∀ {left right : List Nat}, (∀ d ∈ left, d < b) → (∀ d ∈ right, d < b) →
      left.map sign = right.map sign → left = right := by
  intro left
  induction left with
  | nil => intro right _ _ hmap; simpa using hmap.symm
  | cons d left ih =>
      intro right hleft hright hmap
      cases right with
      | nil => simp at hmap
      | cons e right =>
          simp only [List.map_cons, List.cons.injEq] at hmap
          rw [hsign (hleft d (by simp)) (hright e (by simp)) hmap.1,
            ih (fun x hx => hleft x (by simp [hx])) (fun x hx => hright x (by simp [hx])) hmap.2]

/-- A text denotes at most one number, if the signs of the digits differ. -/
theorem Denotes.unique {sign : Nat → α} (hsign : Set.InjOn sign {d | d < b}) {m : Nat}
    {text : List α} (hn : Denotes sign b n text) (hm : Denotes sign b m text) : n = m := by
  obtain ⟨left, hleft, rfl⟩ := hn
  obtain ⟨right, hright, hmap⟩ := hm
  have heq : left = right :=
    digits_eq_of_map_eq hsign hleft.lt_base hright.lt_base hmap
  rw [← hleft.value, ← hright.value, heq]

end Numeral

end Basis
