import Brunix.Stdio.Formats

/-!
# Lines that can be read back

The kernel tells what happens to it through `printk` alone, so what a line says is what can be read from
its characters. A conversion ends where the format goes on with a character that its text does not
hold. In a format all of whose conversions end so, the line determines the text of every argument.
-/

namespace Brunix

open Basis

def fieldTexts (strAt : Word → Buffer) (fmt : List Byte) (args : List Word) : List (List Byte) :=
  List.zipWith (conversionText strAt) (conversions fmt) args

/-- Every conversion is at the end of the format or goes on with an ordinary character that the text
of its argument does not hold. -/
def Separated (strAt : Word → Buffer) : List Byte → List Word → Prop
  | [], _ => True
  | c :: fmt, args =>
      if c = ch '%' then
        match fmt, args with
        | op :: fmt, arg :: args =>
            (∀ next ∈ fmt.head?, next ≠ ch '%' ∧ next ∉ conversionText strAt op arg)
              ∧ Separated strAt fmt args
        | _, _ => True
      else Separated strAt fmt args

/-- The bytes of a literal from its characters. A closed fact about them is decided much faster than one
about the string. -/
theorem asciiBytes_eq {text : String} {chars : List Char} (h : text = String.ofList chars) :
    asciiBytes text = chars.map ch := by
  rw [asciiBytes, h, String.toList_ofList]
  rfl

theorem literal_holds {text : String} (hnonzero : ∀ byte ∈ asciiBytes text, byte ≠ 0) :
    (literal text).Holds (asciiBytes text) :=
  ⟨hnonzero, [], rfl⟩

section Readable

variable {strAt : Word → Buffer}

theorem separated_ordinary {c : Byte} (hpercent : c ≠ ch '%') (fmt : List Byte) (args : List Word) :
    Separated strAt (c :: fmt) args ↔ Separated strAt fmt args := by
  conv => lhs; unfold Separated
  rw [if_neg hpercent]

theorem separated_conversion (op : Byte) (fmt : List Byte) (arg : Word) (args : List Word) :
    Separated strAt (ch '%' :: op :: fmt) (arg :: args)
      ↔ (∀ next ∈ fmt.head?, next ≠ ch '%' ∧ next ∉ conversionText strAt op arg)
        ∧ Separated strAt fmt args := by
  conv => lhs; unfold Separated
  rw [if_pos rfl]

theorem fieldTexts_conversion {op : Byte} (hop : op ∈ conversionChars) (fmt : List Byte) (arg : Word)
    (args : List Word) :
    fieldTexts strAt (ch '%' :: op :: fmt) (arg :: args)
      = conversionText strAt op arg :: fieldTexts strAt fmt args := by
  rw [fieldTexts, conversions_conversion hop]
  rfl

theorem split_conversion {op : Byte} {fmt : List Byte} {arg arg' : Word} {args args' : List Word}
    (hfirst : ∀ next ∈ fmt.head?, next ≠ ch '%' ∧ next ∉ conversionText strAt op arg)
    (hfirst' : ∀ next ∈ fmt.head?, next ≠ ch '%' ∧ next ∉ conversionText strAt op arg')
    (heq : conversionText strAt op arg ++ expand strAt fmt args
      = conversionText strAt op arg' ++ expand strAt fmt args') :
    conversionText strAt op arg = conversionText strAt op arg'
      ∧ expand strAt fmt args = expand strAt fmt args' := by
  cases fmt with
  | nil =>
      rw [expand, expand, List.append_nil, List.append_nil] at heq
      exact ⟨heq, by rw [expand, expand]⟩
  | cons next fmt =>
      obtain ⟨hordinary, hout⟩ := hfirst next rfl
      obtain ⟨-, hout'⟩ := hfirst' next rfl
      rw [expand_ordinary strAt hordinary, expand_ordinary strAt hordinary] at heq ⊢
      obtain ⟨htext, hrest⟩ := split_at_separator hout hout' heq
      exact ⟨htext, by rw [hrest]⟩

/-- Two lines of one format, each with its conversions separated, are the same exactly when the texts of
their arguments are, one by one. -/
theorem expand_eq_iff {fmt : List Byte} {args args' : List Word} (htakes : Takes strAt fmt args)
    (htakes' : Takes strAt fmt args') (hsep : Separated strAt fmt args)
    (hsep' : Separated strAt fmt args') :
    expand strAt fmt args = expand strAt fmt args'
      ↔ fieldTexts strAt fmt args = fieldTexts strAt fmt args' := by
  induction fmt, args using expand.induct generalizing args' with
  | case1 args =>
      rw [expand, expand, fieldTexts, fieldTexts, conversions, List.zipWith_nil_left,
        List.zipWith_nil_left]
      exact ⟨fun _ => rfl, fun _ => rfl⟩
  | case2 op fmt hop arg args ih =>
      obtain ⟨_, rest', rfl, -, -⟩ := htakes'.fit.conversion strAt hop
      obtain ⟨-, -, hrest⟩ := htakes.conversion strAt
      obtain ⟨-, -, hrest'⟩ := htakes'.conversion strAt
      rw [separated_conversion] at hsep hsep'
      rw [expand_conversion strAt hop, expand_conversion strAt hop, fieldTexts_conversion hop,
        fieldTexts_conversion hop, List.cons.injEq, ← ih hrest hrest' hsep.2 hsep'.2]
      constructor
      · exact split_conversion hsep.1 hsep'.1
      · intro heq
        rw [heq.1, heq.2]
  | case3 op fmt hop =>
      obtain ⟨_, _, heq, _⟩ := htakes.fit.conversion strAt hop
      cases heq
  | case4 args op fmt hop => exact absurd ((wellFormed_percent op fmt).mp htakes.wellFormed).1 hop
  | case5 args => exact absurd htakes.wellFormed (by decide)
  | case6 c fmt args hc ih =>
      obtain ⟨-, hrest⟩ := htakes.ordinary strAt hc
      obtain ⟨-, hrest'⟩ := htakes'.ordinary strAt hc
      rw [separated_ordinary hc] at hsep hsep'
      rw [expand_ordinary strAt hc, expand_ordinary strAt hc, fieldTexts, fieldTexts,
        conversions_ordinary hc, ← fieldTexts, ← fieldTexts, List.cons.injEq, eq_self_iff_true,
        true_and]
      exact ih hrest hrest' hsep hsep'

end Readable

/-! ### Lines of numbers -/

def numberChars : List Byte := asciiBytes "diuxXbBp"

/-- The specifiers that print the magnitude of the signed argument alone. -/
def magnitudeChars : List Byte := asciiBytes "xXbB"

/-- A minus sign, the digits of `itoa` in all of its bases, and what `%p` adds. -/
def numberSigns (op : Byte) : List Byte :=
  ch '-' :: (List.range 36).map digitSign
    ++ if op = ch 'p' then [ch '(', ch 'P', ch ';', ch ' ', ch 'K', ch 'B', ch ')'] else []

/-- Every conversion prints a number, and is at the end of the format or goes on with an ordinary
character that is not one of these. -/
def legible : List Byte → Bool
  | [] => true
  | c :: fmt =>
      if c = ch '%' then
        match fmt with
        | op :: fmt =>
            numberChars.contains op
              && fmt.head?.all (fun next => next != ch '%' && !(numberSigns op).contains next)
              && legible fmt
        | [] => false
      else legible fmt

/-- The arguments are the same, up to the sign of those printed without it. -/
def SameNumbers : List Byte → List Word → List Word → Prop
  | op :: ops, arg :: args, arg' :: args' =>
      (arg' = arg ∨ op ∈ magnitudeChars ∧ arg' = -arg) ∧ SameNumbers ops args args'
  | _, _, _ => True

theorem numberChars_cases {op : Byte} (hop : op ∈ numberChars) :
    ∃ spec : NumberSpec, spec.char = op ∧ (spec.Magnitude ↔ op ∈ magnitudeChars)
      ∧ (op = ch 'p' ↔ spec = .p) := by
  have heq : numberChars = [NumberSpec.d, .i, .u, .x, .X, .b, .B, .p].map NumberSpec.char := by
    decide
  rw [heq] at hop
  obtain ⟨spec, -, rfl⟩ := List.mem_map.mp hop
  refine ⟨spec, rfl, ?_, ?_⟩
  · cases spec <;> simp only [NumberSpec.Magnitude, true_iff, false_iff] <;> decide
  · cases spec <;> decide

theorem legible_conversion {op : Byte} {fmt : List Byte}
    (h : legible (ch '%' :: op :: fmt) = true) :
    op ∈ numberChars ∧ (∀ next ∈ fmt.head?, next ≠ ch '%' ∧ next ∉ numberSigns op)
      ∧ legible fmt = true := by
  rw [legible, if_pos rfl, Bool.and_eq_true, Bool.and_eq_true, List.contains_iff_mem] at h
  obtain ⟨⟨hop, hnext⟩, hrest⟩ := h
  refine ⟨hop, fun next hmem => ?_, hrest⟩
  rw [Option.mem_def.mp hmem] at hnext
  simpa using hnext

theorem legible_ordinary {c : Byte} (hpercent : c ≠ ch '%') (fmt : List Byte) :
    legible (c :: fmt) = legible fmt := by
  conv => lhs; unfold legible
  rw [if_neg hpercent]

theorem numberChars_subset {op : Byte} (hop : op ∈ numberChars) :
    op ∈ conversionChars ∧ op ≠ ch 's' := by
  obtain ⟨spec, rfl, -⟩ := numberChars_cases hop
  exact ⟨spec.char_mem, spec.char_ne_s⟩

theorem numberText_subset (op : Byte) {base : Nat} (hlow : 2 ≤ base) (hhigh : base ≤ 36) (w : Word) :
    numberText base w ⊆ numberSigns op := by
  intro c hc
  apply List.mem_append_left
  rw [numberText, itoaText] at hc
  obtain hminus | hdigit := List.mem_append.mp hc
  · split at hminus
    · rw [List.mem_singleton.mp hminus]
      exact List.mem_cons_self
    · cases hminus
  · rw [List.mem_reverse, itoaSigns] at hdigit
    obtain ⟨d, hd, rfl⟩ := List.mem_map.mp hdigit
    have hlt := digitsLE_lt_base (show 1 < base by omega) hd
    exact List.mem_cons_of_mem _ (List.mem_map_of_mem (List.mem_range.mpr (by omega)))

theorem conversionText_subset (strAt : Word → Buffer) {op : Byte} (hop : op ∈ numberChars)
    (w : Word) : conversionText strAt op w ⊆ numberSigns op := by
  have hsigns (op : Byte) : asciiBytes "0x" ⊆ numberSigns op := fun c hc =>
    List.mem_append_left _ ((by decide : ∀ c ∈ asciiBytes "0x",
      c ∈ ch '-' :: (List.range 36).map digitSign) c hc)
  have hten (op : Byte) (w : Word) : numberText 10 w ⊆ numberSigns op :=
    numberText_subset op (by decide) (by decide) w
  have hhex (op : Byte) : asciiBytes "0x" ++ numberText 16 w ⊆ numberSigns op :=
    List.append_subset.mpr ⟨hsigns op, numberText_subset op (by decide) (by decide) w⟩
  have hliteral : asciiBytes "(Pg" ⊆ numberSigns (ch 'p') ∧ asciiBytes "; " ⊆ numberSigns (ch 'p')
      ∧ asciiBytes "KB)" ⊆ numberSigns (ch 'p') := by
    decide
  obtain ⟨spec, rfl, -⟩ := numberChars_cases hop
  cases spec with
  | d | i | u => exact hten _ w
  | x | X => exact hhex _
  | b | B => exact numberText_subset _ (by decide) (by decide) w
  | p =>
      obtain ⟨hopen, hsep, hclose⟩ := hliteral
      change asciiBytes "0x" ++ numberText 16 w ++ asciiBytes "(Pg" ++ numberText 10 (w / 4096)
        ++ asciiBytes "; " ++ numberText 10 (w / 1024) ++ asciiBytes "KB)" ⊆ _
      simp only [List.append_subset]
      exact ⟨⟨⟨⟨⟨List.append_subset.mp (hhex _), hopen⟩, hten _ _⟩, hsep⟩, hten _ _⟩, hclose⟩

theorem legible_conversions {fmt : List Byte} (h : legible fmt = true) :
    conversions fmt ⊆ numberChars := by
  induction fmt using conversions.induct with
  | case1 => exact fun _ hop => absurd hop List.not_mem_nil
  | case2 op fmt hop ih =>
      obtain ⟨hnumber, -, hrest⟩ := legible_conversion h
      rw [conversions_conversion hop]
      exact List.cons_subset.mpr ⟨hnumber, ih hrest⟩
  | case3 op fmt hop => exact absurd (numberChars_subset (legible_conversion h).1).1 hop
  | case4 => exact absurd h (by decide)
  | case5 c fmt hc ih =>
      rw [legible_ordinary hc] at h
      rw [conversions_ordinary hc]
      exact ih h

theorem legible_wellFormed {fmt : List Byte} (h : legible fmt = true) : wellFormed fmt = true := by
  induction fmt using legible.induct with
  | case1 => rfl
  | case2 op fmt ih =>
      obtain ⟨hnumber, -, hrest⟩ := legible_conversion h
      exact (wellFormed_percent op fmt).mpr ⟨(numberChars_subset hnumber).1, ih hrest⟩
  | case3 => exact absurd h (by decide)
  | case4 c fmt hc ih =>
      rw [legible_ordinary hc] at h
      rw [wellFormed_ordinary hc]
      exact ih h

section Legible

variable (strAt : Word → Buffer)

theorem legible_takes {fmt : List Byte} (h : legible fmt = true) (hnonzero : ∀ byte ∈ fmt, byte ≠ 0)
    {args : List Word} (hlength : args.length = (conversions fmt).length) :
    Takes strAt fmt args := by
  refine ⟨hnonzero, legible_wellFormed h, hlength, hlength.ge, fun pair hpair hs => ?_⟩
  exact absurd hs (numberChars_subset (legible_conversions h (List.of_mem_zip hpair).1)).2

theorem legible_separated {fmt : List Byte} (h : legible fmt = true) (args : List Word) :
    Separated strAt fmt args := by
  induction fmt using legible.induct generalizing args with
  | case1 => trivial
  | case2 op fmt ih =>
      obtain ⟨hnumber, hnext, hrest⟩ := legible_conversion h
      cases args with
      | nil =>
          unfold Separated
          rw [if_pos rfl]
          trivial
      | cons arg args =>
          refine (separated_conversion op fmt arg args).mpr ⟨fun next hmem => ?_, ih hrest args⟩
          obtain ⟨hpercent, hout⟩ := hnext next hmem
          exact ⟨hpercent, fun hin => hout (conversionText_subset strAt hnumber arg hin)⟩
  | case3 => exact absurd h (by decide)
  | case4 c fmt hc ih =>
      rw [legible_ordinary hc] at h
      rw [separated_ordinary hc]
      exact ih h args

theorem zipWith_conversionText_eq_iff {ops : List Byte} (hops : ops ⊆ numberChars)
    {args args' : List Word} (hlength : args.length = ops.length)
    (hlength' : args'.length = ops.length) :
    List.zipWith (conversionText strAt) ops args' = List.zipWith (conversionText strAt) ops args
      ↔ SameNumbers ops args args' := by
  induction ops generalizing args args' with
  | nil => exact ⟨fun _ => trivial, fun _ => rfl⟩
  | cons op ops ih =>
      obtain ⟨arg, args, rfl⟩ := List.exists_cons_of_length_eq_add_one hlength
      obtain ⟨arg', args', rfl⟩ := List.exists_cons_of_length_eq_add_one hlength'
      obtain ⟨hop, hrest⟩ := List.cons_subset.mp hops
      obtain ⟨spec, rfl, hmagnitude, -⟩ := numberChars_cases hop
      rw [List.zipWith_cons_cons, List.zipWith_cons_cons, List.cons.injEq, SameNumbers,
        conversionText_eq_iff, hmagnitude,
        ih hrest (Nat.succ.inj hlength) (Nat.succ.inj hlength')]

/-- When every conversion of a format prints a number and goes on with a character no number holds, two
calls of `printk` with it send the same characters exactly when they have the same arguments, up to the
sign of those printed without one. -/
theorem printk_legible_iff {fmt : List Byte} (h : legible fmt = true) {buffer : Buffer}
    (hbuffer : buffer.Holds fmt) {args args' : List Word}
    (hlength : args.length = (conversions fmt).length)
    (hlength' : args'.length = (conversions fmt).length) :
    printk record strAt buffer args' [] = printk record strAt buffer args []
      ↔ SameNumbers (conversions fmt) args args' := by
  have htakes := legible_takes strAt h hbuffer.1 hlength
  have htakes' := legible_takes strAt h hbuffer.1 hlength'
  rw [printk_spec record strAt hbuffer htakes.fit, printk_spec record strAt hbuffer htakes'.fit,
    foldl_record, foldl_record, List.nil_append, List.nil_append, Option.some.injEq,
    expand_eq_iff htakes' htakes (legible_separated strAt h args') (legible_separated strAt h args)]
  exact zipWith_conversionText_eq_iff strAt (legible_conversions h) hlength hlength'

end Legible

/-- The formats of the kernel whose conversions all print numbers, but for the pieces of `debug`. -/
def numberLines : List String :=
  ["-- This is build %u, %u --\n",
    "Kernel size: %d KB. Initial ESP: %x KB\n",
    "BSS section starts at %x and ends at %x. Total: %d KB\n\n",
    "  -> Mem lower: %u KB - Mem upper: %u MB\n",
    "  -> TODO (http://forum.osdev.org/viewtopic.php?f=1&t=10934&start=0) mmap_addr = 0x%x, mmap_length = 0x%x\n\n",
    "[kmain]: Clock ticks: %u\n",
    "[ISR]: Registering interrupt handler number %d, handler %x!\n",
    "*** Unhandled interrupt: %d (error code: %d)\n",
    "[irq]: Registering IRQ handler number %d (%d), handler %x!...\n",
    "[isr]: Calling isr_handler() for IRQ %d!\n",
    "Total frames: %d\n",
    "page dir= %x --",
    "first table = %x --",
    "[paging]: PF extra info => Int. no: %d; CS: %x; EIP: %x; ESP: %x; EFLAGS = %b\n"]

theorem legible_literal {text : String} {chars : List Char} (htext : text = String.ofList chars)
    (h : legible (chars.map ch) = true) : legible (asciiBytes text) = true := by
  rw [asciiBytes_eq htext, h]

theorem legible_numberLines : ∀ line ∈ numberLines, legible (asciiBytes line) = true := by
  simp only [numberLines, List.forall_mem_cons]
  refine ⟨?_, ?_, ?_, ?_, ?_, ?_, ?_, ?_, ?_, ?_, ?_, ?_, ?_, ?_, List.forall_mem_nil _⟩
  all_goals exact legible_literal rfl (by decide +kernel)

/-- The line of the page directory gives its address up to the sign. -/
theorem printk_legible_directory :
    let line := literal "page dir= %x --"
    printk record (fun _ => []) line [0xFFEFC000] []
        = printk record (fun _ => []) line [0x00104000] []
      ∧ printk record (fun _ => []) line [0x00105000] []
        ≠ printk record (fun _ => []) line [0x00104000] [] := by
  intro line
  have hlegible : legible (asciiBytes "page dir= %x --") = true :=
    legible_literal rfl (by decide +kernel)
  have hline : line.Holds (asciiBytes "page dir= %x --") := literal_holds (by
    rw [asciiBytes_eq rfl]
    decide +kernel)
  have hconversions : conversions (asciiBytes "page dir= %x --") = [ch 'x'] := by
    rw [asciiBytes_eq rfl]
    decide +kernel
  have hlength (arg : Word) : [arg].length = (conversions (asciiBytes "page dir= %x --")).length := by
    rw [hconversions]
    rfl
  have hsame (arg : Word) :=
    printk_legible_iff (fun _ => []) hlegible hline (hlength 0x00104000) (hlength arg)
  constructor
  · rw [hsame, hconversions]
    exact ⟨.inr ⟨by decide, by decide⟩, trivial⟩
  · rw [ne_eq, hsame, hconversions]
    intro hnumbers
    obtain hequal | ⟨-, hnegated⟩ := hnumbers.1
    · exact absurd hequal (by decide)
    · exact absurd hnegated (by decide)

end Brunix
