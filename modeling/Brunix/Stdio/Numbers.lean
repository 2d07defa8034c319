import Brunix.Stdio.Printk

/-!
# What a printed number denotes

The printers take a `uint32_t` and hand it to `itoa` as an `int`. `itoa` prints the absolute value,
and a minus sign only in base 10, so an unsigned word in the upper half of the range comes out as the
magnitude of a negative number. The one word of the upper half that survives is `2 ^ 31` itself in
the bases without a sign: it is its own negation.
-/

namespace Brunix

open Basis

def record (sent : List Byte) (c : Byte) : List Byte := sent ++ [c]

theorem foldl_record (text sent : List Byte) : text.foldl record sent = sent ++ text := by
  induction text generalizing sent with
  | nil => simp
  | cons c text ih => rw [List.foldl_cons, ih, record, List.append_assoc]; rfl

inductive NumberSpec
  | d | i | u | x | X | b | B | p
  deriving DecidableEq

namespace NumberSpec

def char : NumberSpec → Byte
  | d => ch 'd'
  | i => ch 'i'
  | u => ch 'u'
  | x => ch 'x'
  | X => ch 'X'
  | b => ch 'b'
  | B => ch 'B'
  | p => ch 'p'

def format (spec : NumberSpec) : CString where
  bytes := [ch '%', spec.char]
  nonzero := by cases spec <;> decide

/-- The specifiers in a base without a sign, and nothing but the number. -/
def Magnitude : NumberSpec → Prop
  | x | X | b | B => True
  | d | i | u | p => False

/-- The text says, in the specifier's notation, that the argument is `w`. -/
def Says (spec : NumberSpec) (w : Word) (text : List Byte) : Prop :=
  match spec with
  | d | i =>
      if w.toInt < 0 then
        ∃ digits, text = ch '-' :: digits ∧ Denotes digitSign 10 w.toInt.natAbs digits
      else Denotes digitSign 10 w.toInt.natAbs text
  | u => Denotes digitSign 10 w.toNat text
  | x | X => ∃ digits, text = asciiBytes "0x" ++ digits ∧ Denotes digitSign 16 w.toNat digits
  | b | B => Denotes digitSign 2 w.toNat text
  | p => ∃ hex page kb,
      text = asciiBytes "0x" ++ hex ++ asciiBytes "(Pg" ++ page ++ asciiBytes "; " ++ kb
        ++ asciiBytes "KB)"
      ∧ Denotes digitSign 16 w.toNat hex
      ∧ Denotes digitSign 10 (w.toNat / 4096) page
      ∧ Denotes digitSign 10 (w.toNat / 1024) kb

/-- The words a specifier prints right. -/
def Faithful (spec : NumberSpec) (w : Word) : Prop :=
  match spec with
  | d | i => True
  | u => w.toNat < 2 ^ 31
  | x | X | b | B | p => w.toNat ≤ 2 ^ 31

end NumberSpec

def printed (strAt : Word → Buffer) (spec : NumberSpec) (w : Word) : Option (List Byte) :=
  printk record strAt spec.format.buffer [w] []

theorem NumberSpec.char_mem (spec : NumberSpec) : spec.char ∈ conversionChars := by
  cases spec <;> decide

theorem NumberSpec.char_ne_s (spec : NumberSpec) : spec.char ≠ ch 's' := by
  cases spec <;> decide

theorem printed_eq (strAt : Word → Buffer) (spec : NumberSpec) (w : Word) :
    printed strAt spec w = some (conversionText strAt spec.char w) := by
  have hargs : ArgsFit strAt spec.format.bytes [w] := by
    have heq : conversions spec.format.bytes = [spec.char] := by
      simp [NumberSpec.format, conversions, spec.char_mem]
    rw [ArgsFit, heq]
    refine ⟨Nat.le_refl _, ?_⟩
    simp [spec.char_ne_s]
  rw [printed, printk_spec record strAt spec.format.buffer_holds hargs, foldl_record,
    NumberSpec.format, expand_conversion strAt spec.char_mem]
  simp [expand]

/-! ### `itoa` on all of its domain -/

/-- The text `itoa` leaves in memory is a minus sign, only in base 10, and the numeral of the absolute
value. It takes 33 bytes at most and nothing behind it changes, so the array of `vga_write_number` is
large enough. In a base that is not supported the text is empty. -/
theorem itoa_correct (value : Word) :
    (∀ base : Nat, 2 ≤ base → base ≤ 36 →
      ∃ digits, Denotes digitSign base value.toInt.natAbs digits ∧
        let text := (if value.toInt < 0 ∧ base = 10 then [ch '-'] else []) ++ digits
        (∀ byte ∈ text, byte ≠ 0) ∧ text.length + 1 ≤ 33 ∧
        (∀ str : Buffer, text.length + 1 ≤ str.length → itoa value.toInt str base
          = some (0, text.map some ++ some 0 :: str.drop (text.length + 1))) ∧
        ∀ {σ : Type} (putc : σ → Byte → σ) (s : σ),
          vgaWriteNumber putc value base s = some (text.foldl putc s)) ∧
    ∀ base : Int, base < 2 ∨ 36 < base → ∀ (old : Option Byte) (rest : Buffer),
      itoa value.toInt (old :: rest) base = some (0, some 0 :: rest) := by
  have hvalue := toInt_natAbs_le value
  constructor
  · intro base hlow hhigh
    refine ⟨(itoaSigns base value.toInt).reverse, denotes_itoaSigns hlow value.toInt, ?_⟩
    refine ⟨itoaText_nonzero hlow hhigh value.toInt,
      Nat.succ_le_succ (itoaText_length_le hlow hvalue), ?_, ?_⟩
    · intro str hroom
      exact itoa_spec hlow hhigh hvalue str hroom
    · intro σ putc s
      exact vgaWriteNumber_spec putc hlow hhigh value s
  · intro base hbase old rest
    rw [itoa, if_pos hbase]
    exact congrArg (Option.map fun str => (0, str)) (Buffer.write_append [] rest old 0)

theorem itoa_correct_least :
    (∃ digits, Denotes digitSign 36 (2 ^ 31) digits ∧
      itoa (-2 ^ 31) (List.replicate 65 none) 36
        = some (0, digits.map some ++ some 0 :: List.replicate (64 - digits.length) none)) ∧
    itoa (-2 ^ 31) [none] 37 = some (0, [some 0]) := by
  obtain ⟨hsupported, hunsupported⟩ := itoa_correct 0x80000000
  obtain ⟨digits, hdigits, -, hlength, htext, -⟩ := hsupported 36 (by decide) (by decide)
  refine ⟨⟨digits, hdigits, ?_⟩, hunsupported 37 (by decide) none []⟩
  rw [if_neg (by decide), List.nil_append] at hlength htext
  have hleast := htext (List.replicate 65 none) (by rw [List.length_replicate]; omega)
  rwa [List.drop_replicate, Nat.add_sub_add_right 64 1] at hleast

/-! ### The text of one number -/

theorem toInt_eq (w : Word) :
    w.toInt = if w.toNat < 2 ^ 31 then (w.toNat : Int) else (w.toNat : Int) - 2 ^ 32 := by
  have := w.isLt
  rw [BitVec.toInt_eq_toNat_cond]
  split_ifs <;> omega

theorem natAbs_toInt_eq_iff (w : Word) : w.toInt.natAbs = w.toNat ↔ w.toNat ≤ 2 ^ 31 := by
  have := w.isLt
  rw [toInt_eq]
  split <;> omega

/-- In a base without a sign the printers print the absolute value of the word as an `int`. -/
theorem denotes_numberText {base : Nat} (hlow : 2 ≤ base) (hten : base ≠ 10) (w : Word) :
    Denotes digitSign base w.toInt.natAbs (numberText base w) := by
  rw [numberText, itoaText, if_neg (by omega), List.nil_append]
  exact denotes_itoaSigns hlow w.toInt

theorem denotes_decimal_nonneg {w : Word} (h : w.toNat < 2 ^ 31) :
    Denotes digitSign 10 w.toNat (numberText 10 w) := by
  have hnonneg : ¬ (w.toInt < 0) := by
    rw [toInt_eq, if_pos h]
    omega
  rw [numberText, itoaText, if_neg fun hneg => hnonneg hneg.1, List.nil_append,
    ← (natAbs_toInt_eq_iff w).mpr (by omega)]
  exact denotes_itoaSigns (by decide) w.toInt

theorem decimal_neg {w : Word} (h : ¬ w.toNat < 2 ^ 31) :
    ∃ digits, numberText 10 w = ch '-' :: digits ∧ Denotes digitSign 10 w.toInt.natAbs digits := by
  have := w.isLt
  have hneg : w.toInt < 0 := by
    rw [toInt_eq, if_neg h]
    omega
  refine ⟨(itoaSigns 10 w.toInt).reverse, ?_, denotes_itoaSigns (by decide) w.toInt⟩
  rw [numberText, itoaText, if_pos ⟨hneg, rfl⟩]
  rfl

theorem not_mem_of_denotes {base n : Nat} {text : List Byte} (hbase : base ≤ 36) {c : Byte}
    (hc : ∀ d < 36, digitSign d ≠ c) (h : Denotes digitSign base n text) : c ∉ text := by
  obtain ⟨digits, hdigits, rfl⟩ := h
  intro hmem
  obtain ⟨d, hd, heq⟩ := List.mem_map.mp hmem
  exact hc d (Nat.lt_of_lt_of_le (hdigits.lt_base d hd) hbase) heq

theorem denotes_magnitude_iff {base : Nat} (hlow : 2 ≤ base) (hhigh : base ≤ 36) (hten : base ≠ 10)
    (w : Word) : Denotes digitSign base w.toNat (numberText base w) ↔ w.toNat ≤ 2 ^ 31 := by
  have htext := denotes_numberText hlow hten w
  rw [← natAbs_toInt_eq_iff]
  constructor
  · intro htold
    exact htext.unique (digitSign_injOn hhigh) htold
  · intro heq
    rwa [heq] at htext

theorem denotes_decimal_iff (w : Word) :
    Denotes digitSign 10 w.toNat (numberText 10 w) ↔ w.toNat < 2 ^ 31 := by
  refine ⟨fun htold => ?_, denotes_decimal_nonneg⟩
  by_contra hneg
  obtain ⟨digits, htext, _⟩ := decimal_neg hneg
  have hminus : ch '-' ∉ numberText 10 w :=
    not_mem_of_denotes (by decide) (fun d hd => digitSign_ne_minus hd) htold
  rw [htext] at hminus
  simp at hminus

/-! ### Which words a specifier prints right -/

section Says

variable (strAt : Word → Buffer) (w : Word)

theorem says_decimal {spec : NumberSpec} (hspec : spec = .d ∨ spec = .i) :
    spec.Says w (numberText 10 w) := by
  have htold : (if w.toInt < 0 then
        ∃ digits, numberText 10 w = ch '-' :: digits ∧ Denotes digitSign 10 w.toInt.natAbs digits
      else Denotes digitSign 10 w.toInt.natAbs (numberText 10 w)) := by
    by_cases hlow : w.toNat < 2 ^ 31
    · have hsign : ¬ (w.toInt < 0) := by
        rw [toInt_eq, if_pos hlow]
        omega
      rw [if_neg hsign, (natAbs_toInt_eq_iff w).mpr (by omega)]
      exact denotes_decimal_nonneg hlow
    · have hsign : w.toInt < 0 := by
        have := w.isLt
        rw [toInt_eq, if_neg hlow]
        omega
      rw [if_pos hsign]
      exact decimal_neg hlow
  rcases hspec with rfl | rfl <;> exact htold

theorem says_hex_iff {spec : NumberSpec} (hspec : spec = .x ∨ spec = .X) :
    spec.Says w (asciiBytes "0x" ++ numberText 16 w) ↔ w.toNat ≤ 2 ^ 31 := by
  rw [← denotes_magnitude_iff (show 2 ≤ 16 by decide) (by decide) (by decide)]
  have htold : (∃ digits, asciiBytes "0x" ++ numberText 16 w = asciiBytes "0x" ++ digits
      ∧ Denotes digitSign 16 w.toNat digits) ↔ Denotes digitSign 16 w.toNat (numberText 16 w) := by
    simp only [List.append_cancel_left_eq, exists_eq_left']
  rcases hspec with rfl | rfl <;> exact htold

/-- A separator that occurs in neither of two prefixes splits equal texts at the same place. -/
theorem split_at_separator {c : Byte} :
    ∀ {left left' right right' : List Byte}, c ∉ left → c ∉ left' →
      left ++ c :: right = left' ++ c :: right' → left = left' ∧ right = right'
  | [], [], _, _, _, _, heq => by simpa using heq
  | [], d :: _, _, _, _, hleft', heq => by
      obtain ⟨rfl, -⟩ := List.cons.inj heq
      simp at hleft'
  | d :: _, [], _, _, hleft, _, heq => by
      obtain ⟨rfl, -⟩ := List.cons.inj heq
      simp at hleft
  | d :: left, e :: left', _, _, hleft, hleft', heq => by
      obtain ⟨rfl, hrest⟩ := List.cons.inj heq
      obtain ⟨rfl, hright⟩ := split_at_separator (fun h => hleft (by simp [h]))
        (fun h => hleft' (by simp [h])) hrest
      exact ⟨rfl, hright⟩

def pointerText (hex page kb : List Byte) : List Byte :=
  asciiBytes "0x" ++ hex ++ asciiBytes "(Pg" ++ page ++ asciiBytes "; " ++ kb ++ asciiBytes "KB)"

theorem digitSign_ne_paren : ∀ d < 36, digitSign d ≠ ch '(' := by decide +kernel

theorem digitSign_ne_semicolon : ∀ d < 36, digitSign d ≠ ch ';' := by decide +kernel

/-- The separators of the group are not digits, so the group can be read in one way only. -/
theorem pointerText_inj {n n' m m' : Nat} {hex page kb hex' page' kb' : List Byte}
    (hhex : Denotes digitSign 16 n hex) (hhex' : Denotes digitSign 16 n' hex')
    (hpage : Denotes digitSign 10 m page) (hpage' : Denotes digitSign 10 m' page')
    (heq : pointerText hex page kb = pointerText hex' page' kb') :
    hex = hex' ∧ page = page' ∧ kb = kb' := by
  have hparen {n : Nat} {text : List Byte} (h : Denotes digitSign 16 n text) : ch '(' ∉ text :=
    not_mem_of_denotes (by decide) digitSign_ne_paren h
  have hsemicolon {n : Nat} {text : List Byte} (h : Denotes digitSign 10 n text) : ch ';' ∉ text :=
    not_mem_of_denotes (by decide) digitSign_ne_semicolon h
  have hopen (tail : List Byte) : asciiBytes "(Pg" ++ tail = ch '(' :: (asciiBytes "Pg" ++ tail) := rfl
  have hsep (tail : List Byte) : asciiBytes "; " ++ tail = ch ';' :: (asciiBytes " " ++ tail) := rfl
  simp only [pointerText, List.append_assoc, List.append_cancel_left_eq] at heq
  rw [hopen, hopen] at heq
  obtain ⟨rfl, hrest⟩ := split_at_separator (hparen hhex) (hparen hhex') heq
  rw [List.append_cancel_left_eq, hsep, hsep] at hrest
  obtain ⟨rfl, hlast⟩ := split_at_separator (hsemicolon hpage) (hsemicolon hpage') hrest
  rw [List.append_cancel_left_eq, List.append_cancel_right_eq] at hlast
  exact ⟨rfl, rfl, hlast⟩

theorem toNat_div_lt {k : Nat} (hk : 2 ≤ k) (hsmall : k < 2 ^ 32) :
    (w / BitVec.ofNat 32 k).toNat = w.toNat / k ∧ (w / BitVec.ofNat 32 k).toNat < 2 ^ 31 := by
  have hw := w.isLt
  have hdiv : (w / BitVec.ofNat 32 k).toNat = w.toNat / k := by
    rw [BitVec.toNat_udiv, BitVec.toNat_ofNat, Nat.mod_eq_of_lt hsmall]
  have hlt : w.toNat / k < 2 ^ 31 := by
    rw [Nat.div_lt_iff_lt_mul (by omega)]
    omega
  rw [hdiv]
  exact ⟨rfl, hlt⟩

/-- A quotient of a word is small enough for the decimal printer. -/
theorem denotes_quotient {k : Nat} (hk : 2 ≤ k) (hsmall : k < 2 ^ 32) :
    Denotes digitSign 10 (w.toNat / k) (numberText 10 (w / BitVec.ofNat 32 k)) := by
  obtain ⟨hdiv, hlt⟩ := toNat_div_lt w hk hsmall
  exact hdiv ▸ denotes_decimal_nonneg hlt

theorem says_pointer_iff :
    NumberSpec.p.Says w (pointerText (numberText 16 w) (numberText 10 (w / 4096))
      (numberText 10 (w / 1024))) ↔ w.toNat ≤ 2 ^ 31 := by
  have hpage := denotes_quotient w (show 2 ≤ 4096 by decide) (by decide)
  have hkb := denotes_quotient w (show 2 ≤ 1024 by decide) (by decide)
  have hhex := denotes_numberText (show 2 ≤ 16 by decide) (by decide) w
  constructor
  · intro hsays
    obtain ⟨hex, page, kb, heq, htold, htoldPage, -⟩ := hsays
    obtain ⟨rfl, -, -⟩ := pointerText_inj hhex htold hpage htoldPage heq
    exact (denotes_magnitude_iff (by decide) (by decide) (by decide) w).mp htold
  · intro hle
    exact ⟨_, _, _, rfl, (denotes_magnitude_iff (by decide) (by decide) (by decide) w).mpr hle,
      hpage, hkb⟩

/-- A conversion says what its argument is exactly for the faithful words. -/
theorem says_iff_faithful (spec : NumberSpec) :
    spec.Says w (conversionText strAt spec.char w) ↔ spec.Faithful w := by
  cases spec with
  | d => exact iff_of_true (says_decimal w (.inl rfl)) trivial
  | i => exact iff_of_true (says_decimal w (.inr rfl)) trivial
  | u => exact denotes_decimal_iff w
  | x => exact says_hex_iff w (.inl rfl)
  | X => exact says_hex_iff w (.inr rfl)
  | b => exact denotes_magnitude_iff (by decide) (by decide) (by decide) w
  | B => exact denotes_magnitude_iff (by decide) (by decide) (by decide) w
  | p => exact says_pointer_iff w

end Says

/-! ### Reading the output back -/

theorem toNat_eq_of_denotes {base : Nat} (hbase : base ≤ 36) {w w' : Word} {text : List Byte}
    (h : Denotes digitSign base w.toNat text) (h' : Denotes digitSign base w'.toNat text) : w = w' :=
  BitVec.eq_of_toNat_eq (h.unique (digitSign_injOn hbase) h')

theorem eq_of_natAbs_eq {w w' : Word} (hsign : w.toInt < 0 ↔ w'.toInt < 0)
    (habs : w.toInt.natAbs = w'.toInt.natAbs) : w = w' :=
  BitVec.toInt_inj.mp (by omega)

theorem says_decimal_unique {w w' : Word} {text : List Byte} (h : NumberSpec.d.Says w text)
    (h' : NumberSpec.d.Says w' text) : w = w' := by
  have hten := digitSign_injOn (show 10 ≤ 36 by decide)
  have hminus : ∀ {n : Nat} {digits : List Byte}, ¬ Denotes digitSign 10 n (ch '-' :: digits) :=
    fun htold => not_mem_of_denotes (by decide) (fun d hd => digitSign_ne_minus hd) htold
      List.mem_cons_self
  by_cases hneg : w.toInt < 0 <;> by_cases hneg' : w'.toInt < 0 <;>
    simp only [NumberSpec.Says, hneg, hneg', if_true, if_false] at h h'
  · obtain ⟨digits, rfl, htold⟩ := h
    obtain ⟨digits', heq, htold'⟩ := h'
    obtain ⟨-, rfl⟩ := List.cons.inj heq
    exact eq_of_natAbs_eq (by omega) (htold.unique hten htold')
  · obtain ⟨digits, rfl, -⟩ := h
    exact absurd h' hminus
  · obtain ⟨digits, rfl, -⟩ := h'
    exact absurd h hminus
  · exact eq_of_natAbs_eq (by omega) (h.unique hten h')

theorem says_hex_unique {w w' : Word} {text : List Byte} (h : NumberSpec.x.Says w text)
    (h' : NumberSpec.x.Says w' text) : w = w' := by
  obtain ⟨digits, rfl, htold⟩ := h
  obtain ⟨digits', heq, htold'⟩ := h'
  rw [List.append_cancel_left_eq] at heq
  subst heq
  exact toNat_eq_of_denotes (by decide) htold htold'

/-- A text says at most one word in the notation of a specifier. -/
theorem NumberSpec.Says.unique {spec : NumberSpec} {w w' : Word} {text : List Byte}
    (h : spec.Says w text) (h' : spec.Says w' text) : w = w' := by
  cases spec with
  | d => exact says_decimal_unique h h'
  | i => exact says_decimal_unique h h'
  | u => exact toNat_eq_of_denotes (by decide) h h'
  | x => exact says_hex_unique h h'
  | X => exact says_hex_unique h h'
  | b => exact toNat_eq_of_denotes (by decide) h h'
  | B => exact toNat_eq_of_denotes (by decide) h h'
  | p =>
      obtain ⟨hex, page, kb, rfl, htold, hpage, -⟩ := h
      obtain ⟨hex', page', kb', heq, htold', hpage', -⟩ := h'
      obtain ⟨rfl, -, -⟩ := pointerText_inj htold htold' hpage hpage' heq
      exact toNat_eq_of_denotes (by decide) htold htold'

/-! ### Which words print the same -/

theorem natAbs_toInt_eq_natAbs_iff (w w' : Word) :
    w'.toInt.natAbs = w.toInt.natAbs ↔ w' = w ∨ w' = -w := by
  have := w.isLt
  have := w'.isLt
  have hneg : (-w).toNat = (2 ^ 32 - w.toNat) % 2 ^ 32 := BitVec.toNat_neg w
  rw [← BitVec.toNat_inj, ← BitVec.toNat_inj, hneg, toInt_eq, toInt_eq]
  split_ifs <;> omega

theorem numberText_eq_iff {base : Nat} (hlow : 2 ≤ base) (hhigh : base ≤ 36) (hten : base ≠ 10)
    (w w' : Word) : numberText base w' = numberText base w ↔ w' = w ∨ w' = -w := by
  have htext := denotes_numberText hlow hten w
  have htext' := denotes_numberText hlow hten w'
  rw [← natAbs_toInt_eq_natAbs_iff]
  constructor
  · intro heq
    rw [heq] at htext'
    exact htext'.unique (digitSign_injOn hhigh) htext
  · intro habs
    rw [habs] at htext'
    rw [htext.eq_digitsLE (by omega), htext'.eq_digitsLE (by omega)]

theorem numberText_decimal_injective (w w' : Word) :
    numberText 10 w' = numberText 10 w ↔ w' = w := by
  refine ⟨fun heq => ?_, fun heq => heq ▸ rfl⟩
  have htold' := says_decimal w' (.inl rfl : NumberSpec.d = .d ∨ NumberSpec.d = .i)
  rw [heq] at htold'
  exact htold'.unique (says_decimal w (.inl rfl))

/-- A word and its negation lie on different pages, so the page number tells them apart. -/
theorem pointerText_eq_iff (w w' : Word) :
    pointerText (numberText 16 w') (numberText 10 (w' / 4096)) (numberText 10 (w' / 1024))
      = pointerText (numberText 16 w) (numberText 10 (w / 4096)) (numberText 10 (w / 1024))
      ↔ w' = w := by
  refine ⟨fun heq => ?_, fun heq => heq ▸ rfl⟩
  have hpage := denotes_quotient w (show 2 ≤ 4096 by decide) (by decide)
  have hpage' := denotes_quotient w' (show 2 ≤ 4096 by decide) (by decide)
  obtain ⟨hhex, hsame, -⟩ := pointerText_inj (denotes_numberText (by decide) (by decide) w')
    (denotes_numberText (by decide) (by decide) w) hpage' hpage heq
  rw [hsame] at hpage'
  have hquot : w'.toNat / 4096 = w.toNat / 4096 :=
    hpage'.unique (digitSign_injOn (by decide)) hpage
  have hneg : (-w).toNat = (2 ^ 32 - w.toNat) % 2 ^ 32 := BitVec.toNat_neg w
  have := w.isLt
  rcases (numberText_eq_iff (by decide) (by decide) (by decide) w w').mp hhex with heq | rfl
  · exact heq
  · rw [hneg] at hquot
    rw [← BitVec.toNat_inj, hneg]
    omega

/-- Two words print the same only under a specifier without a sign, and only as negations. -/
theorem conversionText_eq_iff (strAt : Word → Buffer) (spec : NumberSpec) (w w' : Word) :
    conversionText strAt spec.char w' = conversionText strAt spec.char w
      ↔ w' = w ∨ spec.Magnitude ∧ w' = -w := by
  have hhex : asciiBytes "0x" ++ numberText 16 w' = asciiBytes "0x" ++ numberText 16 w
      ↔ w' = w ∨ True ∧ w' = -w := by
    rw [List.append_cancel_left_eq, true_and]
    exact numberText_eq_iff (by decide) (by decide) (by decide) w w'
  have hbin : numberText 2 w' = numberText 2 w ↔ w' = w ∨ True ∧ w' = -w := by
    rw [true_and]
    exact numberText_eq_iff (by decide) (by decide) (by decide) w w'
  have hplain : (w' = w ∨ False ∧ w' = -w) ↔ w' = w := by simp
  cases spec with
  | d => exact (numberText_decimal_injective w w').trans hplain.symm
  | i => exact (numberText_decimal_injective w w').trans hplain.symm
  | u => exact (numberText_decimal_injective w w').trans hplain.symm
  | x => exact hhex
  | X => exact hhex
  | b => exact hbin
  | B => exact hbin
  | p => exact (pointerText_eq_iff w w').trans hplain.symm

/-- A number conversion sends a text that says its argument, and can be read back to nothing else,
exactly when the argument is faithful for the specifier. Two words print the same exactly when they are
negations of each other under a specifier without a sign. -/
theorem printed_number_iff (strAt : Word → Buffer) (spec : NumberSpec) (w : Word) :
    ((∃ text, printed strAt spec w = some text ∧ spec.Says w text
        ∧ ∀ w', spec.Says w' text → w' = w) ↔ spec.Faithful w)
      ∧ ∀ w', printed strAt spec w' = printed strAt spec w ↔ w' = w ∨ spec.Magnitude ∧ w' = -w := by
  constructor
  · rw [printed_eq, ← says_iff_faithful strAt]
    constructor
    · intro hprinted
      obtain ⟨text, htext, htold, -⟩ := hprinted
      rwa [Option.some.inj htext]
    · intro htold
      exact ⟨_, rfl, htold, fun w' htold' => htold'.unique htold⟩
  · intro w'
    rw [printed_eq, printed_eq, Option.some.injEq]
    exact conversionText_eq_iff strAt spec w w'

/-- `%u` of the largest word prints a negative number, and `%x` of it prints what `%x` of 1 does. -/
theorem printed_max_word :
    printed (fun _ => []) .u 0xFFFFFFFF = some (asciiBytes "-1")
      ∧ ¬ NumberSpec.u.Says 0xFFFFFFFF (asciiBytes "-1")
      ∧ printed (fun _ => []) .x 0xFFFFFFFF = printed (fun _ => []) .x 1
      ∧ (0xFFFFFFFF : Word) ≠ 1 := by
  have htext : conversionText (fun _ => []) NumberSpec.u.char 0xFFFFFFFF = asciiBytes "-1" := by
    change itoaText 10 (BitVec.toInt 0xFFFFFFFF#32) = _
    rw [show BitVec.toInt 0xFFFFFFFF#32 = -1 from rfl]
    simp [itoaText, itoaSigns, digitsLE]
    decide
  refine ⟨by rw [printed_eq, htext], ?_, ?_, by decide⟩
  · rw [← htext, says_iff_faithful]
    exact Nat.not_lt.mpr (by decide)
  · rw [printed_eq, printed_eq, Option.some.injEq, conversionText_eq_iff]
    exact .inr ⟨trivial, by decide⟩

end Brunix
