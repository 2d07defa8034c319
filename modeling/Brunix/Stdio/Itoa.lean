import Brunix.Basis.Numeral
import Brunix.Stdio.Strings

/-!
# `itoa`

The conversion writes the digits from the least significant one, with C's division, whose remainder
has the sign of the dividend: a table of 71 characters, indexed from its middle, serves both signs.
Then it reverses the digits in place, leaving the sign where it is. The `do` loop divides a 32-bit
value by at least two, so it makes at most 32 passes, and that is the fuel it is given.
-/

namespace Brunix

open Basis

/-- The bytes of a string literal, without the terminator. -/
def asciiBytes (text : String) : List Byte := text.toList.map fun ch => BitVec.ofNat 8 ch.toNat

def Buffer.write (str : Buffer) (i : Nat) (byte : Byte) : Option Buffer :=
  if i < str.length then some (str.set i (some byte)) else none

def Buffer.read (str : Buffer) (i : Nat) : Option Byte := str[i]?.join

def digitTable : List Byte :=
  asciiBytes "zyxwvutsrqponmlkjihgfedcba9876543210123456789abcdefghijklmnopqrstuvwxyz"

/-- The digit table at an index of type `int`. -/
def digitAt (i : Int) : Option Byte := if 0 ≤ i then digitTable[i.toNat]? else none

/-- The `do` loop: the write pointer and the memory it leaves. -/
def itoaDigits (base : Int) : Nat → Int → Nat → Buffer → Option (Nat × Buffer)
  | 0, _, _, _ => none
  | fuel + 1, value, ptr, str => do
      let digit ← digitAt (35 + value.tmod base)
      let str ← str.write ptr digit
      let value := value.tdiv base
      if value = 0 then some (ptr + 1, str) else itoaDigits base fuel value (ptr + 1) str

/-- The `while ( low < ptr )` loop. -/
def itoaReverse : Nat → Nat → Nat → Buffer → Option Buffer
  | 0, _, _, _ => none
  | fuel + 1, low, ptr, str =>
      if low < ptr then do
        let tmp ← str.read low
        let last ← str.read ptr
        let str ← str.write low last
        let str ← str.write ptr tmp
        itoaReverse fuel (low + 1) (ptr - 1) str
      else some str

/-- `itoa`: the returned pointer, as an offset into `str`, and the memory from `str` on. -/
def itoa (value : Int) (str : Buffer) (base : Int) : Option (Nat × Buffer) :=
  if base < 2 ∨ 36 < base then do
    let str ← str.write 0 0
    some (0, str)
  else do
    let (low, str) ←
      if value < 0 ∧ base = 10 then (str.write 0 0x2D).map fun str => (1, str) else some (0, str)
    let (ptr, str) ← itoaDigits base 32 value low str
    let str ← str.write ptr 0
    let str ← itoaReverse str.length low (ptr - 1) str
    some (0, str)

/-! ### The digit table -/

/-- The sign of a digit: `0` to `9`, then lower-case letters. -/
def digitSign (d : Nat) : Byte :=
  if d < 10 then 0x30 + BitVec.ofNat 8 d else 0x61 + BitVec.ofNat 8 (d - 10)

theorem digitTable_get : ∀ i : Fin 71,
    digitTable[i.val]? = some (digitSign (i.val - 35 : Int).natAbs) := by
  decide +kernel

/-- The table is mirrored, so it maps a remainder to the sign of its absolute value. -/
theorem digitAt_eq {r : Int} (hr : r.natAbs < 36) : digitAt (35 + r) = some (digitSign r.natAbs) := by
  rw [digitAt, if_pos (by omega), digitTable_get ⟨(35 + r).toNat, by omega⟩]
  refine congrArg (fun d => some (digitSign d)) ?_
  change (((35 + r).toNat : Int) - 35).natAbs = r.natAbs
  omega

theorem digitSign_injOn {b : Nat} (hb : b ≤ 36) : Set.InjOn digitSign {d | d < b} := by
  have h : ∀ left right : Fin 36, digitSign left.val = digitSign right.val → left = right := by
    decide +kernel
  intro left hleft right hright heq
  exact congrArg Fin.val
    (h ⟨left, Nat.lt_of_lt_of_le hleft hb⟩ ⟨right, Nat.lt_of_lt_of_le hright hb⟩ heq)

theorem digitSign_ne_zero {d : Nat} (hd : d < 36) : digitSign d ≠ 0 := by
  have h : ∀ d : Fin 36, digitSign d.val ≠ 0 := by decide +kernel
  exact h ⟨d, hd⟩

theorem digitSign_ne_minus {d : Nat} (hd : d < 36) : digitSign d ≠ 0x2D := by
  have h : ∀ d : Fin 36, digitSign d.val ≠ 0x2D := by decide +kernel
  exact h ⟨d, hd⟩

/-! ### The loops -/

theorem Buffer.write_append (before rest : Buffer) (old : Option Byte) (byte : Byte) :
    Buffer.write (before ++ old :: rest) before.length byte = some (before ++ some byte :: rest) := by
  rw [Buffer.write, if_pos (by simp)]
  simp

theorem Buffer.read_append (before rest : Buffer) (byte : Byte) :
    Buffer.read (before ++ some byte :: rest) before.length = some byte := by
  simp [Buffer.read]

def itoaSigns (base : Nat) (value : Int) : List Byte := (digitsLE base value.natAbs).map digitSign

theorem itoaDigits_spec {base : Nat} (hlow : 2 ≤ base) (hhigh : base ≤ 36) (fuel : Nat) :
    ∀ (value : Int) (before rest : Buffer), (itoaSigns base value).length ≤ fuel →
      (itoaSigns base value).length ≤ rest.length →
      itoaDigits base fuel value before.length (before ++ rest)
        = some (before.length + (itoaSigns base value).length,
            before ++ (itoaSigns base value).map some
              ++ rest.drop (itoaSigns base value).length) := by
  induction fuel with
  | zero =>
      intro value before rest hfuel
      have hne := digitsLE_ne_nil base value.natAbs
      simp [itoaSigns, hne] at hfuel
  | succ fuel ih =>
      intro value before rest hfuel hroom
      have hstep := digitsLE_step (show 1 < base by omega) value.natAbs
      have hmod : value.natAbs % base < base := Nat.mod_lt _ (by omega)
      have hrem : (value.tmod base).natAbs = value.natAbs % base := Int.natAbs_tmod value base
      have hquot : (value.tdiv base).natAbs = value.natAbs / base := Int.natAbs_tdiv value base
      obtain ⟨old, rest, rfl⟩ : ∃ old tail, rest = old :: tail := by
        cases rest with
        | nil => simp [itoaSigns, hstep] at hroom
        | cons old tail => exact ⟨old, tail, rfl⟩
      have hdigit : digitAt (35 + value.tmod base) = some (digitSign (value.natAbs % base)) := by
        rw [digitAt_eq (by omega), hrem]
      rw [itoaDigits, hdigit]
      simp only [Option.bind_eq_bind, Option.bind_some, Buffer.write_append]
      by_cases hdone : value.tdiv base = 0
      · have hdiv : value.natAbs / base = 0 := by rw [← hquot, hdone]; rfl
        rw [if_pos hdone]
        simp [itoaSigns, hstep, hdiv]
      · have hdiv : value.natAbs / base ≠ 0 := by
          rw [← hquot]
          exact Int.natAbs_ne_zero.mpr hdone
        have hsigns : itoaSigns base value
            = digitSign (value.natAbs % base) :: itoaSigns base (value.tdiv base) := by
          rw [itoaSigns, hstep, if_neg hdiv, List.map_cons, itoaSigns, hquot]
        rw [hsigns, List.length_cons] at hfuel hroom
        have hnext := ih (value.tdiv base)
          (before ++ [some (digitSign (value.natAbs % base))]) rest (by omega)
          (by simpa using hroom)
        rw [if_neg hdone, hsigns]
        simp only [List.length_append, List.length_cons, List.length_nil, List.append_assoc,
          List.cons_append, List.nil_append] at hnext
        rw [hnext]
        simp only [List.length_cons, List.map_cons, List.drop_succ_cons, List.append_assoc,
          List.cons_append]
        congr 2
        omega

/-- The `while` loop reverses what lies between its pointers. -/
theorem itoaReverse_spec (fuel : Nat) :
    ∀ (before : Buffer) (mid : List Byte) (after : Buffer), mid.length < fuel →
      itoaReverse fuel before.length (before.length + mid.length - 1)
          (before ++ mid.map some ++ after)
        = some (before ++ mid.reverse.map some ++ after) := by
  induction fuel with
  | zero => intro _ _ _ hfuel; omega
  | succ fuel ih =>
      intro before mid after hfuel
      rcases mid with _ | ⟨first, mid⟩
      · rw [itoaReverse, if_neg (by simp only [List.length_nil]; omega)]
        rfl
      rcases List.eq_nil_or_concat mid with rfl | ⟨inner, last, rfl⟩
      · rw [itoaReverse, if_neg (by simp)]
        rfl
      simp only [List.concat_eq_append] at hfuel ⊢
      have hlow : before ++ (first :: (inner ++ [last])).map some ++ after
          = before ++ some first :: (inner.map some ++ some last :: after) := by simp
      have hhigh (byte : Byte) : before ++ some byte :: (inner.map some ++ some last :: after)
          = (before ++ some byte :: inner.map some) ++ some last :: after := by simp
      have hptr (byte : Byte) : before.length + (first :: (inner ++ [last])).length - 1
          = (before ++ some byte :: inner.map some).length := by simp
      have hnext := ih (before ++ [some last]) inner (some first :: after)
        (by simp at hfuel; omega)
      rw [itoaReverse, if_pos (by simp), hlow, Buffer.read_append, hhigh first, hptr first,
        Buffer.read_append]
      simp only [Option.bind_eq_bind, Option.bind_some]
      rw [← hhigh first, Buffer.write_append]
      simp only [Option.bind_some]
      rw [hhigh last, show (before ++ some first :: inner.map some).length
        = (before ++ some last :: inner.map some).length by simp, Buffer.write_append]
      simp only [Option.bind_some]
      have hpred : (before ++ some last :: inner.map some).length - 1
          = (before ++ [some last]).length + inner.length - 1 := by simp
      rw [hpred, show before.length + 1 = (before ++ [some last]).length by simp,
        show before ++ some last :: inner.map some ++ some first :: after
          = before ++ [some last] ++ inner.map some ++ some first :: after by simp, hnext]
      simp

/-! ### The whole conversion -/

/-- The text `itoa` leaves: a minus sign for a negative decimal, then the digits of `|value|`. -/
def itoaText (base : Nat) (value : Int) : List Byte :=
  (if value < 0 ∧ base = 10 then [0x2D] else []) ++ (itoaSigns base value).reverse

theorem denotes_itoaSigns {base : Nat} (hlow : 2 ≤ base) (value : Int) :
    Denotes digitSign base value.natAbs (itoaSigns base value).reverse := by
  rw [itoaSigns, ← List.map_reverse]
  exact denotes_digitsLE digitSign hlow _

theorem itoaText_nonzero {base : Nat} (hlow : 2 ≤ base) (hhigh : base ≤ 36) (value : Int) :
    ∀ byte ∈ itoaText base value, byte ≠ 0 := by
  have hsign : ∀ byte ∈ itoaSigns base value, byte ≠ 0 := by
    intro byte hbyte
    obtain ⟨d, hd, rfl⟩ := List.mem_map.mp hbyte
    exact digitSign_ne_zero (Nat.lt_of_lt_of_le (digitsLE_lt_base (by omega) hd) hhigh)
  intro byte hbyte
  rw [itoaText, List.mem_append, List.mem_reverse] at hbyte
  rcases hbyte with hminus | hdigit
  · split at hminus
    · rw [List.mem_singleton] at hminus
      rw [hminus]
      decide
    · simp at hminus
  · exact hsign byte hdigit

/-- A 32-bit value has at most 32 digits. -/
theorem itoaSigns_length_le {base : Nat} (hlow : 2 ≤ base) {value : Int}
    (hvalue : value.natAbs ≤ 2 ^ 31) : (itoaSigns base value).length ≤ 32 := by
  rw [itoaSigns, List.length_map]
  apply digitsLE_length_le (by omega) (by omega)
  calc value.natAbs < 2 ^ 32 := by omega
    _ ≤ base ^ 32 := Nat.pow_le_pow_left hlow 32

/-- The sign takes no additional room: only base 10 has one, and there the digits are fewer. -/
theorem itoaText_length_le {base : Nat} (hlow : 2 ≤ base) {value : Int}
    (hvalue : value.natAbs ≤ 2 ^ 31) : (itoaText base value).length ≤ 32 := by
  have hdigits := itoaSigns_length_le hlow hvalue
  rw [itoaText, List.length_append, List.length_reverse]
  split
  · next hsign =>
      have hdecimal : (itoaSigns base value).length ≤ 31 := by
        rw [itoaSigns, List.length_map]
        apply digitsLE_length_le (by omega) (by decide)
        rw [hsign.2]
        omega
      rw [List.length_singleton]
      omega
  · rw [List.length_nil]
    omega

/-- The conversion after the sign: digits, terminator and reversal, behind what is already there. -/
theorem itoaBody_spec {base : Nat} (hlow : 2 ≤ base) (hhigh : base ≤ 36) {value : Int}
    (hvalue : value.natAbs ≤ 2 ^ 31) (before rest : Buffer)
    (hroom : (itoaSigns base value).length + 1 ≤ rest.length) :
    (do
      let (ptr, str) ← itoaDigits base 32 value before.length (before ++ rest)
      let str ← str.write ptr 0
      let str ← itoaReverse str.length before.length (ptr - 1) str
      some (0, str))
      = some (0, before ++ (itoaSigns base value).reverse.map some
          ++ some 0 :: rest.drop ((itoaSigns base value).length + 1)) := by
  obtain ⟨old, hold⟩ : ∃ old, rest.drop (itoaSigns base value).length
      = old :: rest.drop ((itoaSigns base value).length + 1) :=
    ⟨_, List.drop_eq_getElem_cons (by omega)⟩
  have hptr : before.length + (itoaSigns base value).length
      = (before ++ (itoaSigns base value).map some).length := by simp
  rw [itoaDigits_spec hlow hhigh 32 value before rest (itoaSigns_length_le hlow hvalue) (by omega)]
  simp only [Option.bind_eq_bind, Option.bind_some]
  rw [hold, hptr, Buffer.write_append]
  simp only [Option.bind_some]
  rw [← hptr, itoaReverse_spec _ before (itoaSigns base value) _ (by simp; omega)]
  rfl

/-- `itoa` leaves its text, terminated, at the start of the memory it was given, and the rest of that
memory as it was. -/
theorem itoa_spec {base : Nat} (hlow : 2 ≤ base) (hhigh : base ≤ 36) {value : Int}
    (hvalue : value.natAbs ≤ 2 ^ 31) (str : Buffer)
    (hroom : (itoaText base value).length + 1 ≤ str.length) :
    itoa value str base
      = some (0, (itoaText base value).map some
          ++ some 0 :: str.drop ((itoaText base value).length + 1)) := by
  rw [itoa, if_neg (by omega)]
  by_cases hminus : value < 0 ∧ (base : Int) = 10
  · have htext : itoaText base value = 0x2D :: (itoaSigns base value).reverse := by
      rw [itoaText, if_pos (by omega)]
      rfl
    rw [htext, List.length_cons, List.length_reverse] at hroom
    obtain ⟨old, rest, rfl⟩ : ∃ old rest, str = old :: rest := by
      cases str with
      | nil => simp at hroom
      | cons old rest => exact ⟨old, rest, rfl⟩
    have hbody := itoaBody_spec hlow hhigh hvalue [some 0x2D] rest (by simpa using hroom)
    rw [if_pos hminus, show Buffer.write (old :: rest) 0 0x2D = some (some 0x2D :: rest) from
      Buffer.write_append [] rest old 0x2D]
    simp only [htext, Option.map_some, Option.bind_eq_bind, Option.bind_some] at hbody ⊢
    apply Eq.trans hbody
    simp
  · have htext : itoaText base value = (itoaSigns base value).reverse := by
      rw [itoaText, if_neg (by omega)]
      rfl
    rw [htext, List.length_reverse] at hroom
    have hbody := itoaBody_spec hlow hhigh hvalue [] str hroom
    rw [if_neg hminus]
    simp only [htext, Option.bind_eq_bind, Option.bind_some] at hbody ⊢
    apply Eq.trans hbody
    simp

end Brunix
