import Brunix.Stdio.Numbers

/-!
# Formats one after the other

`printk` reads the format and the arguments with two cursors. Over a format without a bad specifier they
keep in step: at its end all of it is printed, its arguments are used up, and what follows is printed as
if it stood alone. A bad specifier after it ends the output, whatever follows in memory.
-/

namespace Brunix

open Basis

def wellFormed : List Byte → Bool
  | [] => true
  | c :: fmt =>
      if c = ch '%' then
        match fmt with
        | op :: fmt => conversionChars.contains op && wellFormed fmt
        | [] => false
      else wellFormed fmt

theorem wellFormed_ordinary {c : Byte} (hpercent : c ≠ ch '%') (fmt : List Byte) :
    wellFormed (c :: fmt) = wellFormed fmt := by
  conv => lhs; unfold wellFormed
  rw [if_neg hpercent]

theorem wellFormed_percent (op : Byte) (fmt : List Byte) :
    wellFormed (ch '%' :: op :: fmt) = true ↔ op ∈ conversionChars ∧ wellFormed fmt = true := by
  rw [wellFormed, if_pos rfl, Bool.and_eq_true, List.contains_iff_mem]

/-- The format is well formed and takes exactly these arguments. -/
structure Takes (strAt : Word → Buffer) (fmt : List Byte) (args : List Word) : Prop where
  nonzero : ∀ byte ∈ fmt, byte ≠ 0
  wellFormed : wellFormed fmt = true
  length : args.length = (conversions fmt).length
  fit : ArgsFit strAt fmt args

section Append

variable {σ : Type} (putc : σ → Byte → σ) (strAt : Word → Buffer)

theorem Takes.ordinary {c : Byte} (hpercent : c ≠ ch '%') {fmt : List Byte} {args : List Word}
    (h : Takes strAt (c :: fmt) args) : c ≠ 0 ∧ Takes strAt fmt args := by
  refine ⟨h.nonzero c List.mem_cons_self, ?_, ?_, ?_, h.fit.ordinary strAt hpercent⟩
  · intro byte hbyte
    exact h.nonzero byte (List.mem_cons_of_mem c hbyte)
  · rw [← wellFormed_ordinary hpercent]
    exact h.wellFormed
  · rw [← conversions_ordinary hpercent]
    exact h.length

theorem Takes.conversion {op : Byte} {fmt : List Byte} {arg : Word} {args : List Word}
    (h : Takes strAt (ch '%' :: op :: fmt) (arg :: args)) :
    op ∈ conversionChars ∧ (op = ch 's' → ∃ bytes, (strAt arg).Holds bytes)
      ∧ Takes strAt fmt args := by
  obtain ⟨hop, hfmt⟩ := (wellFormed_percent op fmt).mp h.wellFormed
  obtain ⟨_, _, heq, hstr, hfit⟩ := h.fit.conversion strAt hop
  obtain ⟨rfl, rfl⟩ := List.cons.inj heq
  refine ⟨hop, hstr, ?_, hfmt, ?_, hfit⟩
  · intro byte hbyte
    exact h.nonzero byte (List.mem_cons_of_mem _ (List.mem_cons_of_mem op hbyte))
  · have hlength := h.length
    rw [conversions_conversion hop] at hlength
    exact Nat.succ.inj hlength

/-- What follows a well-formed format in memory is read with the arguments the format leaves. -/
theorem printk_append {fmt : List Byte} {args : List Word} (h : Takes strAt fmt args)
    (buffer : Buffer) (params : List Word) (s : σ) :
    printk putc strAt (fmt.map some ++ buffer) (args ++ params) s
      = printk putc strAt buffer params ((expand strAt fmt args).foldl putc s) := by
  induction fmt, args using expand.induct generalizing s with
  | case1 args =>
      have hnil : args = [] := List.eq_nil_of_length_eq_zero h.length
      rw [hnil]
      rfl
  | case2 op fmt hop arg args ih =>
      obtain ⟨-, hstr, hrest⟩ := h.conversion strAt
      rw [List.map_cons, List.map_cons, List.cons_append, List.cons_append, List.cons_append,
        printk_conversion putc strAt hop hstr, expand_conversion strAt hop, List.foldl_append]
      exact ih hrest _
  | case3 op fmt hop =>
      obtain ⟨_, _, heq, _⟩ := h.fit.conversion strAt hop
      cases heq
  | case4 args op fmt hop => exact absurd ((wellFormed_percent op fmt).mp h.wellFormed).1 hop
  | case5 args => exact absurd h.wellFormed (by decide)
  | case6 c fmt args hc ih =>
      obtain ⟨hzero, hrest⟩ := h.ordinary strAt hc
      rw [List.map_cons, List.cons_append, printk_ordinary putc strAt hzero hc,
        expand_ordinary strAt hc]
      exact ih hrest _

/-- After a bad specifier nothing more is read, of the format or of the arguments. -/
theorem printk_bad {fmt : List Byte} {args : List Word} (h : Takes strAt fmt args) {op : Byte}
    (hop : op ∉ conversionChars) (rest : Buffer) (params : List Word) (s : σ) :
    printk putc strAt (fmt.map some ++ some (ch '%') :: some op :: rest) (args ++ params) s
      = some ((expand strAt fmt args ++ asciiBytes "bad specifier").foldl putc s) := by
  rw [printk_append putc strAt h, printk_badSpecifier putc strAt hop, List.foldl_append]

/-- The texts of the conversions are what the functions that `printk` calls for them send. -/
structure ConversionTexts (arg : Word) (s : σ) : Prop where
  char : conversionText strAt (ch 'c') arg = [arg.setWidth 8]
  decimal : ∀ op ∈ [ch 'd', ch 'i', ch 'u'],
    vgaPutdec putc arg s = some ((conversionText strAt op arg).foldl putc s)
  hex : ∀ op ∈ [ch 'x', ch 'X'],
    vgaPuthex putc arg s = some ((conversionText strAt op arg).foldl putc s)
  bin : ∀ op ∈ [ch 'b', ch 'B'],
    vgaPutbin putc arg s = some ((conversionText strAt op arg).foldl putc s)
  pointer : conversionText strAt (ch 'p') arg
    = conversionText strAt (ch 'x') arg ++ asciiBytes "(Pg"
      ++ conversionText strAt (ch 'd') (arg / 4096) ++ asciiBytes "; "
      ++ conversionText strAt (ch 'd') (arg / 1024) ++ asciiBytes "KB)"
  string : ∀ bytes, (strAt arg).Holds bytes → conversionText strAt (ch 's') arg = bytes

theorem conversionTexts (arg : Word) (s : σ) : ConversionTexts putc strAt arg s where
  char := rfl
  decimal := by
    intro op hop
    have htext : conversionText strAt op arg = numberText 10 arg := by
      simp only [List.mem_cons, List.not_mem_nil, or_false] at hop
      obtain rfl | rfl | rfl := hop <;> rfl
    rw [htext, vgaPutdec_spec]
  hex := by
    intro op hop
    have htext : conversionText strAt op arg = asciiBytes "0x" ++ numberText 16 arg := by
      simp only [List.mem_cons, List.not_mem_nil, or_false] at hop
      obtain rfl | rfl := hop <;> rfl
    rw [htext, vgaPuthex_spec]
  bin := by
    intro op hop
    have htext : conversionText strAt op arg = numberText 2 arg := by
      simp only [List.mem_cons, List.not_mem_nil, or_false] at hop
      obtain rfl | rfl := hop <;> rfl
    rw [htext, vgaPutbin_spec]
  pointer := rfl
  string := fun _ hbytes => hbytes.text_eq

/-- `printk` sends the expansion of its format. It stops at the first bad specifier, with the rest of
the format and of the arguments unread. A well-formed format and what follows it are printed one after
the other. -/
theorem printk_expands :
    (∀ (fmt : List Byte) (buffer : Buffer) (params : List Word) (s : σ),
      buffer.Holds fmt → ArgsFit strAt fmt params →
        printk putc strAt buffer params s = some ((expand strAt fmt params).foldl putc s)) ∧
    (∀ (arg : Word) (s : σ), ConversionTexts putc strAt arg s) ∧
    (∀ (fmt : List Byte) (args : List Word), Takes strAt fmt args →
      ∀ op ∉ conversionChars, ∀ (rest : Buffer) (params : List Word) (s : σ),
        printk putc strAt (fmt.map some ++ some (ch '%') :: some op :: rest) (args ++ params) s
          = some ((expand strAt fmt args ++ asciiBytes "bad specifier").foldl putc s)) ∧
    ∀ (fmt : List Byte) (args : List Word), Takes strAt fmt args →
      ∀ (buffer : Buffer) (params : List Word) (s : σ),
        printk putc strAt (fmt.map some ++ buffer) (args ++ params) s
          = (printk putc strAt (fmt.map some ++ [some 0]) args s).bind
              (printk putc strAt buffer params) := by
  refine ⟨?_, conversionTexts putc strAt, ?_, ?_⟩
  · intro fmt buffer params s hfmt hargs
    exact printk_spec putc strAt hfmt hargs s
  · intro fmt args htakes op hop rest params s
    exact printk_bad putc strAt htakes hop rest params s
  · intro fmt args htakes buffer params s
    have halone : Buffer.Holds (fmt.map some ++ [some 0]) fmt := ⟨htakes.nonzero, [], rfl⟩
    rw [printk_append putc strAt htakes, printk_spec putc strAt halone htakes.fit, Option.bind_some]

end Append

/-- A string that looks like a conversion, alone and before two percent signs. -/
theorem printk_expands_percent :
    let strAt : Word → Buffer := fun _ => literal "%d"
    printk record strAt (literal "%s") [0x1000] [] = some (asciiBytes "%d") ∧
    printk record strAt (literal "%s%%x") [0x1000] [] = some (asciiBytes "%dbad specifier") ∧
    printk record strAt (literal "%s%c") [0x1000, 0x141] [] = some (asciiBytes "%dA") := by
  intro strAt
  obtain ⟨hexpand, -, hbad, happend⟩ := printk_expands record strAt
  have hstr : Buffer.Holds (strAt 0x1000) (asciiBytes "%d") := ⟨by decide, [], rfl⟩
  have hconversions : conversions (asciiBytes "%s") = [ch 's'] := by decide
  have hfit : ArgsFit strAt (asciiBytes "%s") [0x1000] := by
    rw [ArgsFit, hconversions]
    refine ⟨Nat.le_refl 1, ?_⟩
    intro arg harg _
    rw [List.mem_singleton.mp harg]
    exact ⟨_, hstr⟩
  have htakes : Takes strAt (asciiBytes "%s") [0x1000] := by
    refine ⟨by decide, by decide, ?_, hfit⟩
    rw [hconversions]
    rfl
  have halone : printk record strAt (literal "%s") [0x1000] [] = some (asciiBytes "%d") :=
    hexpand _ _ _ _ ⟨by decide, [], rfl⟩ hfit
  refine ⟨halone, hbad _ _ htakes (ch '%') (by decide) [some (ch 'x'), some 0] [] [], ?_⟩
  have hsecond : printk record strAt (literal "%c") [0x141] (asciiBytes "%d")
      = some (asciiBytes "%dA") := rfl
  calc
    printk record strAt (literal "%s%c") [0x1000, 0x141] []
      = (printk record strAt (literal "%s") [0x1000] []).bind
          (printk record strAt (literal "%c") [0x141]) := happend _ _ htakes _ _ _
    _ = some (asciiBytes "%dA") := by rw [halone, Option.bind_some, hsecond]

end Brunix
