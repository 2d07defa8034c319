import Brunix.Kernel.Output
import Brunix.Paging.Access
import Mathlib.Tactic.IntervalCases

/-!
# The report of a page fault, `memory.c`

The handler turns the error code into five texts and prints them with the faulting address and the
registers. What it prints is given apart from `printk`, and says what the error code says: of its five
bits none is lost, and the numbers are lost up to the sign that `%x` and `%b` do not print.
-/

namespace Brunix

open Basis

/-! ### `memory.c` -/

def printPageFault (literals : Literals) (errPos : Word) (regs : Registers) : List Action :=
  let pagePresent := regs.errCode &&& 1
  let readWrite := regs.errCode &&& 2
  let userMode := regs.errCode &&& 4
  let reserved := regs.errCode &&& 8
  let instructionFetch := regs.errCode &&& 16
  let instructionFetchStr := if instructionFetch ≠ 0 then "Fetching instruction" else ""
  let pagePresentStr :=
    if pagePresent ≠ 0 then "Page present but protected" else "No page present"
  let userModeStr := if userMode ≠ 0 then "In user mode" else ""
  let readwrite := if readWrite ≠ 0 then "Writing" else "Reading"
  let reservedWrite := if reserved ≠ 0 then "Reserved write field" else ""
  debug "paging" "Page fault (PF) occurred at %x. PF context: %s - %s - %s - %s - %s"
      [errPos, literals.address pagePresentStr, literals.address readwrite,
        literals.address userModeStr, literals.address reservedWrite,
        literals.address instructionFetchStr] ++
    debug "paging" "PF extra info => Int. no: %d; CS: %x; EIP: %x; ESP: %x; EFLAGS = %b"
      [regs.intNo, regs.cs, regs.eip, regs.esp, regs.eflags]

/-- The calls before the loop that halts. -/
def pageFaultCallback (literals : Literals) (errPos : Word) (regs : Registers) : List Action :=
  printPageFault literals errPos regs
    ++ panicNoargs literals "halting..." "arch/x86/kernel/memory.c" 48

/-! ### The text -/

theorem and_mask_ne_zero (errCode : Word) {i : Nat} (hi : i < 32) :
    errCode &&& BitVec.twoPow 32 i ≠ 0 ↔ errCode.getLsbD i = true := by
  rw [BitVec.and_twoPow]
  split
  · next h =>
      rw [h]
      simp only [ne_eq, iff_true]
      intro hzero
      have hbit := congrArg (BitVec.getLsbD · i) hzero
      simp [hi] at hbit
  · next h => simp [h]

/-- The five texts, in the order of the line. -/
def contextTexts (errCode : Word) : List String :=
  [if errCode.getLsbD 0 then "Page present but protected" else "No page present",
    if errCode.getLsbD 1 then "Writing" else "Reading",
    if errCode.getLsbD 2 then "In user mode" else "",
    if errCode.getLsbD 3 then "Reserved write field" else "",
    if errCode.getLsbD 4 then "Fetching instruction" else ""]

theorem contextTexts_passed (errCode : Word) : ∀ text ∈ contextTexts errCode, text ∈ passedTexts := by
  simp only [contextTexts, List.forall_mem_cons, List.not_mem_nil, false_imp_iff, implies_true,
    and_true]
  refine ⟨?_, ?_, ?_, ?_, ?_⟩ <;> split <;> simp [passedTexts]

def faultLine (errPos errCode : Word) : List Byte :=
  asciiBytes "[paging]: Page fault (PF) occurred at " ++ (asciiBytes "0x" ++ numberText 16 errPos)
    ++ asciiBytes ". PF context: "
    ++ (asciiBytes " - ").intercalate ((contextTexts errCode).map asciiBytes) ++ asciiBytes "\n"

/-- The format of the first line, cut at its conversions. -/
theorem faultFormat_eq :
    asciiBytes ("[" ++ "paging" ++ "]: "
        ++ "Page fault (PF) occurred at %x. PF context: %s - %s - %s - %s - %s" ++ "\n")
      = asciiBytes "[paging]: Page fault (PF) occurred at " ++ ch '%' :: ch 'x' ::
        (asciiBytes ". PF context: " ++ ch '%' :: ch 's' :: (asciiBytes " - " ++ ch '%' :: ch 's' ::
        (asciiBytes " - " ++ ch '%' :: ch 's' :: (asciiBytes " - " ++ ch '%' :: ch 's' ::
        (asciiBytes " - " ++ ch '%' :: ch 's' :: asciiBytes "\n"))))) := by
  have hstart : asciiBytes "[paging]: Page fault (PF) occurred at " = _ := asciiBytes_eq rfl
  have hcontext : asciiBytes ". PF context: " = _ := asciiBytes_eq rfl
  rw [asciiBytes_debug rfl rfl, hstart, hcontext]
  decide +kernel

theorem expand_faultFormat (literals : Literals) (errPos errCode : Word) :
    expand literals.strAt (asciiBytes ("[" ++ "paging" ++ "]: "
        ++ "Page fault (PF) occurred at %x. PF context: %s - %s - %s - %s - %s" ++ "\n"))
      (errPos :: (contextTexts errCode).map literals.address) = faultLine errPos errCode := by
  have hstr : ch 's' ∈ conversionChars := by decide
  have hhex : ch 'x' ∈ conversionChars := by decide
  have hdash : ch '%' ∉ asciiBytes " - " := by decide
  have hpassed := contextTexts_passed errCode
  simp only [contextTexts, List.forall_mem_cons] at hpassed
  obtain ⟨hpresent, hwrite, huser, hreserved, hfetch, -⟩ := hpassed
  simp only [faultFormat_eq, faultLine, contextTexts, List.map_cons, List.map_nil]
  have hstart : ch '%' ∉ asciiBytes "[paging]: Page fault (PF) occurred at " := by
    rw [asciiBytes_eq rfl]
    decide
  rw [expand_text _ hstart, expand_conversion _ hhex, expand_text _ (by decide)]
  simp only [expand_conversion _ hstr, expand_text _ hdash, literals.conversionText_eq hpresent,
    literals.conversionText_eq hwrite, literals.conversionText_eq huser,
    literals.conversionText_eq hreserved, literals.conversionText_eq hfetch]
  have hend : expand literals.strAt (asciiBytes "\n") [] = asciiBytes "\n" := rfl
  have hnumber : conversionText literals.strAt (ch 'x') errPos
      = asciiBytes "0x" ++ numberText 16 errPos := rfl
  simp only [hend, hnumber, List.intercalate_cons_cons, List.intercalate_singleton,
    List.append_assoc]

def infoLine (strAt : Word → Buffer) (regs : Registers) : List Byte :=
  expand strAt (asciiBytes ("[" ++ "paging" ++ "]: "
      ++ "PF extra info => Int. no: %d; CS: %x; EIP: %x; ESP: %x; EFLAGS = %b" ++ "\n"))
    [regs.intNo, regs.cs, regs.eip, regs.esp, regs.eflags]

theorem printPageFault_eq (literals : Literals) (errPos : Word) (regs : Registers) :
    printPageFault literals errPos regs
      = debug "paging" "Page fault (PF) occurred at %x. PF context: %s - %s - %s - %s - %s"
          (errPos :: (contextTexts regs.errCode).map literals.address)
        ++ debug "paging" "PF extra info => Int. no: %d; CS: %x; EIP: %x; ESP: %x; EFLAGS = %b"
          [regs.intNo, regs.cs, regs.eip, regs.esp, regs.eflags] := by
  have hpresent : regs.errCode &&& 1 ≠ 0 ↔ regs.errCode.getLsbD 0 = true :=
    and_mask_ne_zero regs.errCode (show 0 < 32 by decide)
  have hwrite : regs.errCode &&& 2 ≠ 0 ↔ regs.errCode.getLsbD 1 = true :=
    and_mask_ne_zero regs.errCode (show 1 < 32 by decide)
  have huser : regs.errCode &&& 4 ≠ 0 ↔ regs.errCode.getLsbD 2 = true :=
    and_mask_ne_zero regs.errCode (show 2 < 32 by decide)
  have hreserved : regs.errCode &&& 8 ≠ 0 ↔ regs.errCode.getLsbD 3 = true :=
    and_mask_ne_zero regs.errCode (show 3 < 32 by decide)
  have hfetch : regs.errCode &&& 16 ≠ 0 ↔ regs.errCode.getLsbD 4 = true :=
    and_mask_ne_zero regs.errCode (show 4 < 32 by decide)
  simp only [printPageFault, contextTexts, List.map_cons, List.map_nil, hpresent, hwrite, huser,
    hreserved, hfetch]

theorem printPageFault_text (literals : Literals) (errPos : Word) (regs : Registers) :
    (printPageFault literals errPos regs).flatMap (Action.text literals.strAt)
      = faultLine errPos regs.errCode ++ infoLine literals.strAt regs := by
  simp only [printPageFault_eq, debug, List.flatMap_append, List.flatMap_cons, List.flatMap_nil,
    Action.text, expand_faultFormat, infoLine, List.nil_append, List.append_nil]

/-! ### The arguments -/

theorem faultFormat_conversions :
    conversions (asciiBytes ("[" ++ "paging" ++ "]: "
        ++ "Page fault (PF) occurred at %x. PF context: %s - %s - %s - %s - %s" ++ "\n"))
      = [ch 'x', ch 's', ch 's', ch 's', ch 's', ch 's'] := by
  rw [asciiBytes_debug rfl rfl]
  decide +kernel

theorem faultFormat_nonzero :
    0 ∉ asciiBytes ("[" ++ "paging" ++ "]: "
      ++ "Page fault (PF) occurred at %x. PF context: %s - %s - %s - %s - %s" ++ "\n") := by
  rw [asciiBytes_debug rfl rfl]
  decide +kernel

theorem infoFormat_takesNumbers :
    Action.takesNumbers (asciiBytes ("[" ++ "paging" ++ "]: "
      ++ "PF extra info => Int. no: %d; CS: %x; EIP: %x; ESP: %x; EFLAGS = %b" ++ "\n")) 5 = true := by
  rw [asciiBytes_debug rfl rfl]
  decide +kernel

theorem Literals.holds_address (literals : Literals) {text : String} (h : text ∈ passedTexts) :
    ∃ bytes, (literals.strAt (literals.address text)).Holds bytes :=
  ⟨_, literals.holds text h⟩

theorem printPageFault_fits (literals : Literals) (errPos : Word) (regs : Registers) :
    ∀ action ∈ printPageFault literals errPos regs, action.Fits literals.strAt := by
  rw [printPageFault_eq]
  refine List.forall_mem_append.mpr ⟨Action.debug_fits ?_, Action.debug_fits ?_⟩
  · refine Action.fits_of_conversions faultFormat_nonzero faultFormat_conversions (Nat.le_refl 6)
      fun arg harg hop => ?_
    rw [List.zip_cons_cons, List.mem_cons] at harg
    obtain rfl | hstr := harg
    · exact absurd hop (show ch 'x' ≠ ch 's' by decide)
    · obtain ⟨text, hmem, hword⟩ := List.mem_map.mp (List.of_mem_zip hstr).2
      rw [← hword]
      exact literals.holds_address (contextTexts_passed _ text hmem)
  · exact Action.fits_of_takesNumbers infoFormat_takesNumbers rfl

theorem pageFaultCallback_fits (literals : Literals) (errPos : Word) (regs : Registers) :
    ∀ action ∈ pageFaultCallback literals errPos regs, action.Fits literals.strAt := by
  refine List.forall_mem_append.mpr ⟨printPageFault_fits literals errPos regs, ?_⟩
  exact panicNoargs_fits literals (by decide) (by decide) (by decide) 48

/-! ### What the report says -/

theorem text_ite_injective {a b : String} (hne : asciiBytes a ≠ asciiBytes b) {p q : Bool}
    (heq : asciiBytes (if p then a else b) = asciiBytes (if q then a else b)) : p = q := by
  cases p <;> cases q
  · rfl
  · exact absurd heq.symm hne
  · exact absurd heq hne
  · rfl

theorem split_at_dash {left left' right right' : List Byte} (hleft : ch '-' ∉ left)
    (hleft' : ch '-' ∉ left')
    (heq : left ++ (asciiBytes " - " ++ right) = left' ++ (asciiBytes " - " ++ right')) :
    left = left' ∧ right = right' := by
  have hsep : asciiBytes " - " = [ch ' '] ++ ch '-' :: [ch ' '] := by decide
  have hspace {text : List Byte} (h : ch '-' ∉ text) : ch '-' ∉ text ++ [ch ' '] := by
    simp only [List.mem_append, List.mem_singleton, not_or]
    exact ⟨h, by decide⟩
  rw [hsep, List.append_assoc, List.append_assoc, ← List.append_assoc left,
    ← List.append_assoc left'] at heq
  obtain ⟨hsame, hrest⟩ := split_at_separator (hspace hleft) (hspace hleft') heq
  exact ⟨List.append_cancel_right hsame, List.append_cancel_left hrest⟩

/-- The characters of the five texts. -/
theorem contextTexts_notMem {c : Byte} (hc : c ∈ [ch '-', ch '\n']) (errCode : Word) :
    ∀ text ∈ contextTexts errCode, c ∉ asciiBytes text := by
  have hpassed : ∀ text ∈ passedTexts, ∀ c ∈ [ch '-', ch '\n'], c ∉ asciiBytes text := by
    simp only [passedTexts, List.forall_mem_cons, List.not_mem_nil, false_imp_iff, implies_true,
      and_true]
    refine ⟨?_, ?_, ?_, ?_, ?_, ?_, ?_, ?_, ?_, ?_⟩ <;> (rw [asciiBytes_eq rfl]; decide)
  exact fun text htext => hpassed text (contextTexts_passed errCode text htext) c hc

theorem hex_notMem {c : Byte} (hc : c ∉ numberSigns (ch 'x')) (w : Word) : c ∉ numberText 16 w :=
  fun hmem => hc (numberText_subset (ch 'x') (by decide) (by decide) w hmem)

/-- None of the five texts holds a dash, so the dashes between them are where they seem. -/
theorem contextTexts_injective {errCode errCode' : Word}
    (heq : (asciiBytes " - ").intercalate ((contextTexts errCode').map asciiBytes)
      = (asciiBytes " - ").intercalate ((contextTexts errCode).map asciiBytes)) :
    ∀ i < 5, errCode'.getLsbD i = errCode.getLsbD i := by
  have hout := contextTexts_notMem (c := ch '-') (by decide) errCode
  have hout' := contextTexts_notMem (c := ch '-') (by decide) errCode'
  simp only [contextTexts, List.forall_mem_cons, List.map_cons, List.map_nil,
    List.intercalate_cons_cons, List.intercalate_singleton, List.append_assoc] at heq hout hout'
  obtain ⟨hpresent, heq⟩ := split_at_dash hout'.1 hout.1 heq
  obtain ⟨hwrite, heq⟩ := split_at_dash hout'.2.1 hout.2.1 heq
  obtain ⟨huser, heq⟩ := split_at_dash hout'.2.2.1 hout.2.2.1 heq
  obtain ⟨hreserved, hfetch⟩ := split_at_dash hout'.2.2.2.1 hout.2.2.2.1 heq
  intro i hi
  interval_cases i
  · exact text_ite_injective (by decide) hpresent
  · exact text_ite_injective (by decide) hwrite
  · exact text_ite_injective (by decide) huser
  · exact text_ite_injective (by decide) hreserved
  · exact text_ite_injective (by decide) hfetch

theorem faultLine_inj (errPos errPos' errCode errCode' : Word) :
    faultLine errPos' errCode' = faultLine errPos errCode
      ↔ (errPos' = errPos ∨ errPos' = -errPos)
        ∧ ∀ i < 5, errCode'.getLsbD i = errCode.getLsbD i := by
  have hdot : asciiBytes ". PF context: " = ch '.' :: asciiBytes " PF context: " := by decide
  rw [← numberText_eq_iff (show 2 ≤ 16 by decide) (by decide) (by decide)]
  constructor
  · intro heq
    simp only [faultLine, hdot, List.append_assoc, List.cons_append, List.append_cancel_left_eq] at heq
    obtain ⟨hnumber, hrest⟩ := split_at_separator (hex_notMem (by decide) errPos')
      (hex_notMem (by decide) errPos) heq
    rw [List.append_cancel_left_eq, List.append_cancel_right_eq] at hrest
    exact ⟨hnumber, contextTexts_injective hrest⟩
  · intro hsame
    obtain ⟨hnumber, hbits⟩ := hsame
    simp only [faultLine, contextTexts, hnumber, hbits 0 (by decide), hbits 1 (by decide),
      hbits 2 (by decide), hbits 3 (by decide), hbits 4 (by decide)]

/-- The newline is the last character of the line, and it has no other. -/
theorem faultLine_newline (errPos errCode : Word) :
    ∃ line, faultLine errPos errCode = line ++ [ch '\n'] ∧ ch '\n' ∉ line := by
  have hstart : ch '\n' ∉ asciiBytes "[paging]: Page fault (PF) occurred at " := by
    rw [asciiBytes_eq rfl]
    decide
  have hcontext : ch '\n' ∉ asciiBytes ". PF context: " := by decide
  have hdash : ch '\n' ∉ asciiBytes " - " := by decide
  have hprefix : ch '\n' ∉ asciiBytes "0x" := by decide
  have htexts := contextTexts_notMem (c := ch '\n') (by decide) errCode
  refine ⟨asciiBytes "[paging]: Page fault (PF) occurred at " ++ (asciiBytes "0x" ++ numberText 16 errPos)
    ++ asciiBytes ". PF context: "
    ++ (asciiBytes " - ").intercalate ((contextTexts errCode).map asciiBytes), rfl, ?_⟩
  simp only [contextTexts, List.forall_mem_cons, List.map_cons, List.map_nil,
    List.intercalate_cons_cons, List.intercalate_singleton, List.mem_append, not_or] at htexts ⊢
  obtain ⟨hpresent, hwrite, huser, hreserved, hfetch, -⟩ := htexts
  exact ⟨⟨⟨hstart, hprefix, hex_notMem (by decide) errPos⟩, hcontext⟩, ⟨hpresent, hdash⟩,
    ⟨hwrite, hdash⟩, ⟨huser, hdash⟩, ⟨hreserved, hdash⟩, hfetch⟩

/-- What `print_page_fault` prints before its first newline. -/
def reportedLine (literals : Literals) (errPos : Word) (regs : Registers) : List Byte :=
  ((printPageFault literals errPos regs).flatMap (Action.text literals.strAt)).takeWhile
    fun c => c != ch '\n'

theorem reportedLine_newline (literals : Literals) (errPos : Word) (regs : Registers) :
    reportedLine literals errPos regs ++ [ch '\n'] = faultLine errPos regs.errCode := by
  obtain ⟨line, hline, hplain⟩ := faultLine_newline errPos regs.errCode
  have hall : ∀ c ∈ line, (c != ch '\n') = true := by
    intro c hc
    rw [bne_iff_ne]
    exact fun heq => hplain (heq ▸ hc)
  rw [reportedLine, printPageFault_text, hline, List.append_assoc, List.singleton_append,
    List.takeWhile_append_of_pos hall, List.takeWhile_cons_of_neg (by simp), List.append_nil]

theorem faultLine_eq_iff (literals : Literals) (errPos errPos' : Word) (regs regs' : Registers) :
    reportedLine literals errPos' regs' = reportedLine literals errPos regs
      ↔ (errPos' = errPos ∨ errPos' = -errPos)
        ∧ ∀ i < 5, regs'.errCode.getLsbD i = regs.errCode.getLsbD i := by
  rw [← faultLine_inj, ← reportedLine_newline literals, ← reportedLine_newline literals,
    List.append_cancel_right_eq]

def sampleFault (errCode : Word) : Registers := { Registers.read (fun _ => 0) 0 with errCode := errCode }

/-- An address and its negative are printed alike, a read and a write are not. -/
theorem faultLine_eq_iff_sign :
    reportedLine sampleLiterals 0xFFFFFFFF (sampleFault 0) = reportedLine sampleLiterals 1 (sampleFault 0)
      ∧ reportedLine sampleLiterals 1 (sampleFault 2) ≠ reportedLine sampleLiterals 1 (sampleFault 0) := by
  refine ⟨(faultLine_eq_iff sampleLiterals 1 0xFFFFFFFF (sampleFault 0) (sampleFault 0)).mpr
    ⟨.inr (by decide), fun _ _ => rfl⟩, fun heq => ?_⟩
  have hbits := ((faultLine_eq_iff sampleLiterals 1 1 (sampleFault 0) (sampleFault 2)).mp heq).2
  exact absurd (hbits 1 (by decide)) (by decide)

/-! ### What the report says of the filled tables -/

/-- What was wrong with an access through the filled tables. -/
def accessTexts (kind : AccessKind) (a : Word) : List String :=
  [if a.toNat < 0x400000 then "Page present but protected" else "No page present",
    if kind.write then "Writing" else "Reading", if kind.user then "In user mode" else "", "", ""]

theorem contextTexts_errorCode (kind : AccessKind) (present : Bool) :
    contextTexts (kind.errorCode present)
      = [if present then "Page present but protected" else "No page present",
        if kind.write then "Writing" else "Reading", if kind.user then "In user mode" else "",
        "", ""] := by
  obtain ⟨write, user⟩ := kind
  cases present <;> cases write <;> cases user <;> rfl

/-- Through the filled tables an access of the supervisor below 4 MiB goes to its own address. Any other
faults, and what the handler then prints of the error code is whether the address is below 4 MiB,
whether the access was a write and whether it was a user's. -/
theorem printPageFault_truthful {pageDirectory firstPageTable cr0 : Word} {mem : Memory}
    (h : TablesFilled pageDirectory firstPageTable mem) (hpaging : cr0 &&& pagingFlag ≠ 0)
    (kind : AccessKind) (a : Word) :
    (translate cr0 pageDirectory mem kind a = .physical a
        ∧ a.toNat < 0x400000 ∧ kind.user = false)
      ∨ ∃ errCode, translate cr0 pageDirectory mem kind a = .fault errCode
        ∧ (0x400000 ≤ a.toNat ∨ kind.user = true)
        ∧ ∀ (literals : Literals) (regs : Registers), regs.errCode = errCode →
          (printPageFault literals a regs).flatMap (Action.text literals.strAt)
            = asciiBytes "[paging]: Page fault (PF) occurred at "
              ++ (asciiBytes "0x" ++ numberText 16 a) ++ asciiBytes ". PF context: "
              ++ (asciiBytes " - ").intercalate ((accessTexts kind a).map asciiBytes)
              ++ asciiBytes "\n" ++ infoLine literals.strAt regs := by
  have hreport (present : Bool) (hpresent : present = true ↔ a.toNat < 0x400000)
      (literals : Literals) (regs : Registers) (hcode : regs.errCode = kind.errorCode present) :
      (printPageFault literals a regs).flatMap (Action.text literals.strAt)
        = asciiBytes "[paging]: Page fault (PF) occurred at "
          ++ (asciiBytes "0x" ++ numberText 16 a) ++ asciiBytes ". PF context: "
          ++ (asciiBytes " - ").intercalate ((accessTexts kind a).map asciiBytes)
          ++ asciiBytes "\n" ++ infoLine literals.strAt regs := by
    have hcontext : contextTexts regs.errCode = accessTexts kind a := by
      simp only [hcode, contextTexts_errorCode, accessTexts, hpresent]
    rw [printPageFault_text, faultLine, hcontext]
  have htranslate := h.translate_eq hpaging kind a
  by_cases hhigh : 0x400000 ≤ a.toNat
  · rw [if_pos hhigh] at htranslate
    exact .inr ⟨_, htranslate, .inl hhigh, hreport false ⟨nofun, fun hlow => by omega⟩⟩
  · rw [if_neg hhigh] at htranslate
    cases huser : kind.user with
    | false =>
        rw [huser] at htranslate
        exact .inl ⟨htranslate, by omega, rfl⟩
    | true =>
        rw [huser] at htranslate
        exact .inr ⟨_, htranslate, .inr rfl, hreport true ⟨fun _ => by omega, fun _ => rfl⟩⟩

theorem printPageFault_truthful_screen :
    translate 0x80000011 0x1000 sampleTables ⟨true, true⟩ 0xB8000 = .fault 7
      ∧ (printPageFault sampleLiterals 0xB8000 (sampleFault 7)).flatMap
          (Action.text sampleLiterals.strAt)
        = asciiBytes ("[paging]: Page fault (PF) occurred at 0xb8000. PF context: "
            ++ "Page present but protected - Writing - In user mode -  - \n")
          ++ infoLine sampleLiterals.strAt (sampleFault 7) := by
  have hpaging : (0x80000011 : Word) &&& pagingFlag ≠ 0 := by decide
  have hfault : translate 0x80000011 0x1000 sampleTables ⟨true, true⟩ 0xB8000 = .fault 7 := by
    rw [sampleTables_filled.translate_eq hpaging]
    decide
  obtain ⟨-, -, huser⟩ | ⟨errCode, hfault', -, hreport⟩ :=
    printPageFault_truthful sampleTables_filled hpaging ⟨true, true⟩ 0xB8000
  · exact absurd huser (by decide)
  · obtain rfl := Translation.fault.inj (hfault.symm.trans hfault')
    have hline : asciiBytes "[paging]: Page fault (PF) occurred at "
        ++ (asciiBytes "0x" ++ numberText 16 0xB8000) ++ asciiBytes ". PF context: "
        ++ (asciiBytes " - ").intercalate ((accessTexts ⟨true, true⟩ 0xB8000).map asciiBytes)
        ++ asciiBytes "\n"
        = asciiBytes ("[paging]: Page fault (PF) occurred at 0xb8000. PF context: "
          ++ "Page present but protected - Writing - In user mode -  - \n") := by
      decide +kernel
    rw [← hline]
    exact ⟨hfault, hreport sampleLiterals (sampleFault 7) rfl⟩

end Brunix
