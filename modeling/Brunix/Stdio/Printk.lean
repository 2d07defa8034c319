import Brunix.Stdio.Itoa

/-!
# `printk`

The formatter of `stdio.c` and the number printers of `vga.c` under it, over the sink their
characters go to. The format and the `%s` arguments are read from memory byte by byte, so a read past
a terminator would show as `none`, and so would a conversion without an argument. What they send is
`expand`, a text computed from the format and the arguments alone.
-/

namespace Brunix

open Basis

def ch (c : Char) : Byte := BitVec.ofNat 8 c.toNat

def literal (text : String) : Buffer := (asciiBytes text).map some ++ [some 0]

def vaArg : List Word → Option (Word × List Word)
  | [] => none
  | arg :: params => some (arg, params)

/-- How a `switch` ends: with a `break`, or with a `return` from the function. -/
inductive Flow (σ : Type)
  | next (params : List Word) (s : σ)
  | done (s : σ)

def Flow.sink {σ : Type} : Flow σ → σ
  | .next _ s => s
  | .done s => s

section Sink

variable {σ : Type} (putc : σ → Byte → σ)

/-! ### The number printers of `vga.c` -/

/-- `vga_write_number`. The digits go through an automatic array of 65 bytes. -/
def vgaWriteNumber (n : Word) (base : Int) (s : σ) : Option σ := do
  let (_, str) ← itoa n.toInt (List.replicate (64 + 1) none) base
  vgaPuts putc str s

def vgaPuthex (n : Word) (s : σ) : Option σ := do
  let s ← vgaPuts putc (literal "0x") s
  vgaWriteNumber putc n 16 s

def vgaPutdec (n : Word) (s : σ) : Option σ := vgaWriteNumber putc n 10 s

def vgaPutbin (n : Word) (s : σ) : Option σ := vgaWriteNumber putc n 2 s

/-! ### `stdio.c` -/

variable (strAt : Word → Buffer)

/-- The `switch (op)` of `printk`. Memory is given by what lies at each address. -/
def printkSwitch (op : Byte) (params : List Word) (s : σ) : Option (Flow σ) :=
  if op = ch 'c' then do
    let (arg, params) ← vaArg params
    some (.next params (putc s (arg.setWidth 8)))
  else if op = ch 'd' ∨ op = ch 'i' then do
    let (arg, params) ← vaArg params
    let s ← vgaPutdec putc arg s
    some (.next params s)
  else if op = ch 'u' then do
    let (arg, params) ← vaArg params
    let s ← vgaPutdec putc arg s
    some (.next params s)
  else if op = ch 'x' ∨ op = ch 'X' then do
    let (arg, params) ← vaArg params
    let s ← vgaPuthex putc arg s
    some (.next params s)
  else if op = ch 'p' then do
    let (hex, params) ← vaArg params
    let s ← vgaPuthex putc hex s
    let s ← vgaPuts putc (literal "(Pg") s
    let s ← vgaPutdec putc (hex / 4096) s
    let s ← vgaPuts putc (literal "; ") s
    let s ← vgaPutdec putc (hex / 1024) s
    let s ← vgaPuts putc (literal "KB)") s
    some (.next params s)
  else if op = ch 'b' ∨ op = ch 'B' then do
    let (arg, params) ← vaArg params
    let s ← vgaPutbin putc arg s
    some (.next params s)
  else if op = ch 's' then do
    let (arg, params) ← vaArg params
    let s ← vgaPuts putc (strAt arg) s
    some (.next params s)
  else do
    let s ← vgaPuts putc (literal "bad specifier") s
    some (.done s)

def printk : Buffer → List Word → σ → Option σ
  | some c :: fmt, params, s =>
      if c = 0 then some s
      else if c = ch '%' then
        match fmt with
        | some op :: fmt =>
            match printkSwitch putc strAt op params s with
            | some (.next params s) => printk fmt params s
            | some (.done s) => some s
            | none => none
        | _ => none
      else printk fmt params (putc s c)
  | _, _, _ => none

theorem printk_nul (fmt : Buffer) (params : List Word) (s : σ) :
    printk putc strAt (some 0 :: fmt) params s = some s := by
  unfold printk
  exact if_pos rfl

theorem printk_ordinary {c : Byte} (hzero : c ≠ 0) (hpercent : c ≠ ch '%') (fmt : Buffer)
    (params : List Word) (s : σ) :
    printk putc strAt (some c :: fmt) params s = printk putc strAt fmt params (putc s c) := by
  conv => lhs; unfold printk
  rw [if_neg hzero, if_neg hpercent]

theorem printk_percent (op : Byte) (fmt : Buffer) (params : List Word) (s : σ) :
    printk putc strAt (some (ch '%') :: some op :: fmt) params s
      = match printkSwitch putc strAt op params s with
        | some (.next params s) => printk putc strAt fmt params s
        | some (.done s) => some s
        | none => none := by
  rw [printk, if_neg (by decide), if_pos rfl]

end Sink

/-! ### Invariants of the sink

Whatever its arguments, an output function touches the sink through `putc` alone, so it keeps every
invariant `putc` keeps. -/

section Invariant

variable {σ : Type} {putc : σ → Byte → σ} {P : σ → Prop} (hputc : ∀ s c, P s → P (putc s c))
include hputc

theorem vgaPuts_invariant {buffer : Buffer} {s s' : σ} (hrun : vgaPuts putc buffer s = some s')
    (hs : P s) : P s' := by
  induction buffer generalizing s with
  | nil => cases hrun
  | cons byte rest ih =>
      cases byte with
      | none => cases hrun
      | some byte =>
          rw [vgaPuts] at hrun
          split at hrun
          · exact Option.some.inj hrun ▸ hs
          · exact ih hrun (hputc s byte hs)

theorem vgaWriteNumber_invariant {n : Word} {base : Int} {s s' : σ}
    (hrun : vgaWriteNumber putc n base s = some s') (hs : P s) : P s' := by
  rw [vgaWriteNumber] at hrun
  obtain ⟨⟨rc, str⟩, -, hputs⟩ := Option.bind_eq_some_iff.mp hrun
  exact vgaPuts_invariant hputc hputs hs

theorem vgaPuthex_invariant {n : Word} {s s' : σ} (hrun : vgaPuthex putc n s = some s') (hs : P s) :
    P s' := by
  rw [vgaPuthex] at hrun
  obtain ⟨mid, hputs, hrest⟩ := Option.bind_eq_some_iff.mp hrun
  exact vgaWriteNumber_invariant hputc hrest (vgaPuts_invariant hputc hputs hs)

theorem printkSwitch_invariant {strAt : Word → Buffer} {op : Byte} {params : List Word} {s : σ}
    {flow : Flow σ} (hrun : printkSwitch putc strAt op params s = some flow) (hs : P s) :
    P flow.sink := by
  unfold printkSwitch at hrun
  split_ifs at hrun <;>
    simp only [Option.bind_eq_bind, Option.bind_eq_some_iff, Option.some.injEq] at hrun
  · obtain ⟨⟨arg, rest⟩, -, rfl⟩ := hrun
    exact hputc _ _ hs
  · obtain ⟨⟨arg, rest⟩, -, s', hdec, rfl⟩ := hrun
    exact vgaWriteNumber_invariant hputc hdec hs
  · obtain ⟨⟨arg, rest⟩, -, s', hdec, rfl⟩ := hrun
    exact vgaWriteNumber_invariant hputc hdec hs
  · obtain ⟨⟨arg, rest⟩, -, s', hhex, rfl⟩ := hrun
    exact vgaPuthex_invariant hputc hhex hs
  · obtain ⟨⟨hex, rest⟩, -, s₁, hhex, s₂, hopen, s₃, hpage, s₄, hsep, s₅, hkb, s₆, hclose, rfl⟩ :=
      hrun
    have h₁ : P s₁ := vgaPuthex_invariant hputc hhex hs
    have h₂ : P s₂ := vgaPuts_invariant hputc hopen h₁
    have h₃ : P s₃ := vgaWriteNumber_invariant hputc hpage h₂
    have h₄ : P s₄ := vgaPuts_invariant hputc hsep h₃
    have h₅ : P s₅ := vgaWriteNumber_invariant hputc hkb h₄
    exact vgaPuts_invariant hputc hclose h₅
  · obtain ⟨⟨arg, rest⟩, -, s', hbin, rfl⟩ := hrun
    exact vgaWriteNumber_invariant hputc hbin hs
  · obtain ⟨⟨arg, rest⟩, -, s', hputs, rfl⟩ := hrun
    exact vgaPuts_invariant hputc hputs hs
  · obtain ⟨s', hputs, rfl⟩ := hrun
    exact vgaPuts_invariant hputc hputs hs

theorem printk_invariant {strAt : Word → Buffer} {fmt : Buffer} {params : List Word} {s s' : σ}
    (hrun : printk putc strAt fmt params s = some s') (hs : P s) : P s' := by
  induction fmt, params, s using printk.induct putc strAt with
  | case1 fmt params s =>
      rw [printk_nul] at hrun
      exact Option.some.inj hrun ▸ hs
  | case2 params s op fmt params' mid hswitch _ ih =>
      rw [printk_percent, hswitch] at hrun
      exact ih hrun (printkSwitch_invariant hputc hswitch hs)
  | case3 params s op fmt mid hswitch =>
      rw [printk_percent, hswitch] at hrun
      exact Option.some.inj hrun ▸ printkSwitch_invariant hputc hswitch hs
  | case4 params s op fmt hswitch =>
      rw [printk_percent, hswitch] at hrun
      cases hrun
  | case5 fmt params s hend hpercent =>
      rw [printk.eq_2 _ _ _ _ _ _ hend, if_neg hpercent, if_pos rfl] at hrun
      cases hrun
  | case6 c fmt params s hzero hpercent ih =>
      rw [printk_ordinary putc strAt hzero hpercent] at hrun
      exact ih hrun (hputc s c hs)
  | case7 fmt params s hend =>
      rw [printk.eq_3 _ _ _ _ _ hend] at hrun
      cases hrun

end Invariant

/-! ### What is sent -/

/-- The bytes in memory up to the first that is zero or may not be read. -/
def Buffer.text : Buffer → List Byte
  | some byte :: rest => if byte = 0 then [] else byte :: Buffer.text rest
  | _ => []

theorem Buffer.Holds.text_eq {buffer : Buffer} {bytes : List Byte} (h : buffer.Holds bytes) :
    buffer.text = bytes := by
  obtain ⟨hnonzero, rest, rfl⟩ := h
  induction bytes with
  | nil => simp [Buffer.text]
  | cons byte bytes ih =>
      rw [List.map_cons, List.cons_append, Buffer.text, if_neg (hnonzero byte (by simp)),
        ih fun b hb => hnonzero b (by simp [hb])]

def numberText (base : Nat) (n : Word) : List Byte := itoaText base n.toInt

def conversionChars : List Byte := asciiBytes "cdiuxXpbBs"

/-- The text of a conversion of an argument. -/
def conversionText (strAt : Word → Buffer) (op : Byte) (arg : Word) : List Byte :=
  if op = ch 'c' then [arg.setWidth 8]
  else if op = ch 'd' ∨ op = ch 'i' ∨ op = ch 'u' then numberText 10 arg
  else if op = ch 'x' ∨ op = ch 'X' then asciiBytes "0x" ++ numberText 16 arg
  else if op = ch 'p' then
    asciiBytes "0x" ++ numberText 16 arg ++ asciiBytes "(Pg" ++ numberText 10 (arg / 4096)
      ++ asciiBytes "; " ++ numberText 10 (arg / 1024) ++ asciiBytes "KB)"
  else if op = ch 'b' ∨ op = ch 'B' then numberText 2 arg
  else (strAt arg).text

/-- The text of a format and its arguments: conversions are replaced in order, and the first bad
specifier ends it. -/
def expand (strAt : Word → Buffer) : List Byte → List Word → List Byte
  | [], _ => []
  | c :: fmt, params =>
      if c = ch '%' then
        match fmt with
        | op :: fmt =>
            if op ∈ conversionChars then
              match params with
              | arg :: params => conversionText strAt op arg ++ expand strAt fmt params
              | [] => []
            else asciiBytes "bad specifier"
        | [] => asciiBytes "bad specifier"
      else c :: expand strAt fmt params

def conversions : List Byte → List Byte
  | [] => []
  | c :: fmt =>
      if c = ch '%' then
        match fmt with
        | op :: fmt => if op ∈ conversionChars then op :: conversions fmt else []
        | [] => []
      else conversions fmt

/-- There is an argument for each conversion, and a string at each address `%s` is given. -/
def ArgsFit (strAt : Word → Buffer) (fmt : List Byte) (params : List Word) : Prop :=
  (conversions fmt).length ≤ params.length ∧
    ∀ arg ∈ (conversions fmt).zip params, arg.1 = ch 's' → ∃ bytes, (strAt arg.2).Holds bytes

section Spec

variable {σ : Type} (putc : σ → Byte → σ)

theorem vgaPuts_literal (text : String) (hnonzero : ∀ byte ∈ asciiBytes text, byte ≠ 0) (s : σ) :
    vgaPuts putc (literal text) s = some ((asciiBytes text).foldl putc s) :=
  vgaPuts_cString putc ⟨asciiBytes text, hnonzero⟩ s

theorem toInt_natAbs_le (n : Word) : n.toInt.natAbs ≤ 2 ^ 31 := by
  have := BitVec.le_toInt n
  have := BitVec.toInt_lt (x := n)
  omega

/-- The 65-byte array is large enough, and no byte of it is read before it is written. -/
theorem vgaWriteNumber_spec {base : Nat} (hlow : 2 ≤ base) (hhigh : base ≤ 36) (n : Word) (s : σ) :
    vgaWriteNumber putc n base s = some ((numberText base n).foldl putc s) := by
  have hlength := itoaText_length_le hlow (toInt_natAbs_le n)
  rw [vgaWriteNumber, itoa_spec hlow hhigh (toInt_natAbs_le n) _ (by simp; omega)]
  exact vgaPuts_of_holds putc ⟨itoaText_nonzero hlow hhigh n.toInt, _, rfl⟩ s

theorem vgaPutdec_spec (n : Word) (s : σ) :
    vgaPutdec putc n s = some ((numberText 10 n).foldl putc s) :=
  vgaWriteNumber_spec putc (by decide) (by decide) n s

theorem vgaPutbin_spec (n : Word) (s : σ) :
    vgaPutbin putc n s = some ((numberText 2 n).foldl putc s) :=
  vgaWriteNumber_spec putc (by decide) (by decide) n s

theorem vgaPuthex_spec (n : Word) (s : σ) :
    vgaPuthex putc n s = some ((asciiBytes "0x" ++ numberText 16 n).foldl putc s) := by
  rw [vgaPuthex, vgaPuts_literal putc "0x" (by decide), List.foldl_append]
  exact vgaWriteNumber_spec putc (by decide) (by decide) n _

variable (strAt : Word → Buffer)

theorem conversionChars_eq :
    conversionChars
      = [ch 'c', ch 'd', ch 'i', ch 'u', ch 'x', ch 'X', ch 'p', ch 'b', ch 'B', ch 's'] := by
  decide

/-- A conversion takes one argument and sends its text. -/
theorem printkSwitch_conversion {op : Byte} (hop : op ∈ conversionChars) {arg : Word}
    (hstr : op = ch 's' → ∃ bytes, (strAt arg).Holds bytes) (params : List Word) (s : σ) :
    printkSwitch putc strAt op (arg :: params) s
      = some (.next params ((conversionText strAt op arg).foldl putc s)) := by
  have hpg := vgaPuts_literal putc "(Pg" (by decide)
  have hsep := vgaPuts_literal putc "; " (by decide)
  have hkb := vgaPuts_literal putc "KB)" (by decide)
  rw [conversionChars_eq] at hop
  simp only [List.mem_cons, List.not_mem_nil, or_false] at hop
  rcases hop with rfl | rfl | rfl | rfl | rfl | rfl | rfl | rfl | rfl | rfl
  case inr.inr.inr.inr.inr.inr.inr.inr.inr =>
    obtain ⟨bytes, hbytes⟩ := hstr rfl
    simp [printkSwitch, conversionText, ch, vaArg, vgaPuts_of_holds putc hbytes, hbytes.text_eq]
  all_goals simp [printkSwitch, conversionText, ch, vaArg, vgaPutdec_spec, vgaPuthex_spec,
    vgaPutbin_spec, hpg, hsep, hkb]

theorem printkSwitch_bad {op : Byte} (hop : op ∉ conversionChars) (params : List Word) (s : σ) :
    printkSwitch putc strAt op params s
      = some (.done ((asciiBytes "bad specifier").foldl putc s)) := by
  rw [conversionChars_eq] at hop
  simp only [List.mem_cons, List.not_mem_nil, or_false, not_or] at hop
  simp [printkSwitch, hop, vgaPuts_literal putc "bad specifier" (by decide)]

theorem printk_conversion {op : Byte} (hop : op ∈ conversionChars) {arg : Word}
    (hstr : op = ch 's' → ∃ bytes, (strAt arg).Holds bytes) (fmt : Buffer) (params : List Word)
    (s : σ) :
    printk putc strAt (some (ch '%') :: some op :: fmt) (arg :: params) s
      = printk putc strAt fmt params ((conversionText strAt op arg).foldl putc s) := by
  rw [printk_percent, printkSwitch_conversion putc strAt hop hstr]

theorem printk_badSpecifier {op : Byte} (hop : op ∉ conversionChars) (fmt : Buffer)
    (params : List Word) (s : σ) :
    printk putc strAt (some (ch '%') :: some op :: fmt) params s
      = some ((asciiBytes "bad specifier").foldl putc s) := by
  rw [printk_percent, printkSwitch_bad putc strAt hop]

theorem expand_ordinary {c : Byte} (hpercent : c ≠ ch '%') (fmt : List Byte) (params : List Word) :
    expand strAt (c :: fmt) params = c :: expand strAt fmt params := by
  conv => lhs; unfold expand
  rw [if_neg hpercent]

theorem expand_conversion {op : Byte} (hop : op ∈ conversionChars) (fmt : List Byte) (arg : Word)
    (params : List Word) :
    expand strAt (ch '%' :: op :: fmt) (arg :: params)
      = conversionText strAt op arg ++ expand strAt fmt params := by
  rw [expand, if_pos rfl, if_pos hop]

theorem expand_bad {op : Byte} (hop : op ∉ conversionChars) (fmt : List Byte)
    (params : List Word) :
    expand strAt (ch '%' :: op :: fmt) params = asciiBytes "bad specifier" := by
  unfold expand
  rw [if_pos rfl]
  exact if_neg hop

theorem expand_percent_end (params : List Word) :
    expand strAt [ch '%'] params = asciiBytes "bad specifier" := by
  unfold expand
  rw [if_pos rfl]

theorem conversions_ordinary {c : Byte} (hpercent : c ≠ ch '%') (fmt : List Byte) :
    conversions (c :: fmt) = conversions fmt := by
  conv => lhs; unfold conversions
  rw [if_neg hpercent]

theorem conversions_conversion {op : Byte} (hop : op ∈ conversionChars) (fmt : List Byte) :
    conversions (ch '%' :: op :: fmt) = op :: conversions fmt := by
  rw [conversions, if_pos rfl, if_pos hop]

theorem ArgsFit.ordinary {c : Byte} (hpercent : c ≠ ch '%') {fmt : List Byte} {params : List Word}
    (h : ArgsFit strAt (c :: fmt) params) : ArgsFit strAt fmt params := by
  rwa [ArgsFit, conversions_ordinary hpercent] at h

theorem ArgsFit.conversion {op : Byte} (hop : op ∈ conversionChars) {fmt : List Byte}
    {params : List Word} (h : ArgsFit strAt (ch '%' :: op :: fmt) params) :
    ∃ arg rest, params = arg :: rest ∧ (op = ch 's' → ∃ bytes, (strAt arg).Holds bytes)
      ∧ ArgsFit strAt fmt rest := by
  rw [ArgsFit, conversions_conversion hop] at h
  cases params with
  | nil => simp at h
  | cons arg rest =>
      refine ⟨arg, rest, rfl, h.2 (op, arg) (by simp), by simpa using h.1, fun pair hpair => ?_⟩
      exact h.2 pair (by simp [hpair])

theorem printk_spec {fmt : List Byte} {buffer : Buffer} (hfmt : buffer.Holds fmt)
    {params : List Word} (hargs : ArgsFit strAt fmt params) (s : σ) :
    printk putc strAt buffer params s = some ((expand strAt fmt params).foldl putc s) := by
  obtain ⟨hnonzero, rest, rfl⟩ := hfmt
  induction fmt, params using expand.induct generalizing s with
  | case1 params => exact printk_nul putc strAt rest params s
  | case2 op fmt hop arg params ih =>
      obtain ⟨_, _, heq, hstr, hargs⟩ := hargs.conversion strAt hop
      obtain ⟨rfl, rfl⟩ := List.cons.inj heq
      rw [List.map_cons, List.map_cons, List.cons_append, List.cons_append,
        printk_conversion putc strAt hop hstr, expand_conversion strAt hop, List.foldl_append]
      exact ih hargs _ fun byte hbyte => hnonzero byte (by simp [hbyte])
  | case3 op fmt hop =>
      obtain ⟨_, _, heq, _⟩ := hargs.conversion strAt hop
      cases heq
  | case4 params op fmt hop =>
      rw [List.map_cons, List.map_cons, List.cons_append, List.cons_append,
        printk_badSpecifier putc strAt hop, expand_bad strAt hop]
  | case5 params =>
      -- the terminator is itself the bad specifier
      rw [List.map_cons, List.map_nil, List.cons_append, List.nil_append,
        printk_badSpecifier putc strAt (by decide), expand_percent_end]
  | case6 c fmt params hc ih =>
      rw [List.map_cons, List.cons_append, printk_ordinary putc strAt (hnonzero c (by simp)) hc,
        expand_ordinary strAt hc]
      exact ih (hargs.ordinary strAt hc) _ fun byte hbyte => hnonzero byte (by simp [hbyte])

end Spec

end Brunix
