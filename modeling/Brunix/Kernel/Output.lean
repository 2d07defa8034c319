import Brunix.Console.Invariant
import Brunix.Console.Refinement
import Brunix.Interrupt.Dispatch
import Brunix.Stdio.Readable

/-!
# What the kernel prints

The C functions outside the console print through `printk` and `set_fg_color` alone. Their actions are
run here on the console, and on the terminal it stands for. The strings they pass by address lie in
memory, where the linker put them.
-/

namespace Brunix

open Basis

/-- The literals that are passed to `printk` for a `%s`. -/
def passedTexts : List String :=
  ["", "Fetching instruction", "Page present but protected", "No page present", "In user mode",
    "Writing", "Reading", "Reserved write field", "kernel/main.c", "arch/x86/kernel/memory.c"]

/-- Memory, with the literals at the addresses the linker gave them. -/
structure Literals where
  strAt : Word → Buffer
  address : String → Word
  holds : ∀ text ∈ passedTexts, (strAt (address text)).Holds (asciiBytes text)

/-- The literals, 256 bytes apart. -/
def sampleAddress (text : String) : Word := 0x00120000 + 256 * BitVec.ofNat 32 (passedTexts.idxOf text)

/-- The literal at an address. The empty string is at all others. -/
def sampleStrAt (a : Word) : Buffer :=
  literal ((passedTexts.find? fun text => sampleAddress text = a).getD "")

theorem sampleStrAt_holds :
    ∀ text ∈ passedTexts, (sampleStrAt (sampleAddress text)).Holds (asciiBytes text) := by
  have hfind : ∀ text ∈ passedTexts,
      (passedTexts.find? fun text' => sampleAddress text' = sampleAddress text).getD "" = text := by
    decide +kernel
  have hnonzero : ∀ text ∈ passedTexts, 0 ∉ asciiBytes text := by decide +kernel
  intro text htext
  rw [sampleStrAt, hfind text htext]
  exact literal_holds fun byte hbyte hzero => hnonzero text htext (hzero ▸ hbyte)

def sampleLiterals : Literals := ⟨sampleStrAt, sampleAddress, sampleStrAt_holds⟩

/-- The macro of `brunix/stdio.h`, up to its loop. -/
def panicNoargs (literals : Literals) (msg file : String) (line : Word) : List Action :=
  [.setFgColor colorRed,
    .printk ("Kernel panic: " ++ msg ++ " (%s:%d)") [literals.address file, line]]

theorem asciiBytes_append (text text' : String) :
    asciiBytes (text ++ text') = asciiBytes text ++ asciiBytes text' := by
  rw [asciiBytes, String.toList_append, List.map_append]
  rfl

/-- The characters of the format of a `debug`. -/
def debugChars (moduleName fmt : List Char) : List Char :=
  '[' :: moduleName ++ [']', ':', ' '] ++ fmt ++ ['\n']

theorem asciiBytes_debug {moduleName fmt : String} {moduleChars chars : List Char}
    (hmodule : moduleName = String.ofList moduleChars) (hfmt : fmt = String.ofList chars) :
    asciiBytes ("[" ++ moduleName ++ "]: " ++ fmt ++ "\n")
      = (debugChars moduleChars chars).map ch := by
  have hopen : asciiBytes "[" = ['['].map ch := asciiBytes_eq rfl
  have hclose : asciiBytes "]: " = [']', ':', ' '].map ch := asciiBytes_eq rfl
  have hend : asciiBytes "\n" = ['\n'].map ch := asciiBytes_eq rfl
  simp only [asciiBytes_append, hopen, hclose, hend, asciiBytes_eq hmodule, asciiBytes_eq hfmt,
    debugChars, List.map_append, List.cons_append, List.nil_append, List.map_cons, List.map_nil]

namespace Action

def onConsole (strAt : Word → Buffer) (s : Vga) : Action → Option Vga
  | .setFgColor colour => some (vgaSetForegroundColor colour s)
  | .printk fmt params => Brunix.printk vgaPutc strAt (literal fmt) params s
  | _ => some s

def text (strAt : Word → Buffer) : Action → List Byte
  | .printk fmt params => expand strAt (asciiBytes fmt) params
  | _ => []

def onTerminal (strAt : Word → Buffer) (t : Terminal) (action : Action) : Terminal :=
  match action with
  | .setFgColor colour => t.setForegroundColor colour
  | action => (action.text strAt).foldl Terminal.putc t

/-- The format is a string, and the arguments are what it asks for. -/
def Fits (strAt : Word → Buffer) : Action → Prop
  | .printk fmt params => (∀ byte ∈ asciiBytes fmt, byte ≠ 0) ∧ ArgsFit strAt (asciiBytes fmt) params
  | _ => True

theorem fits_of_conversions {strAt : Word → Buffer} {fmt : String} {ops : List Byte}
    {params : List Word} (hnonzero : 0 ∉ asciiBytes fmt)
    (hconversions : conversions (asciiBytes fmt) = ops) (hlength : ops.length ≤ params.length)
    (hstr : ∀ arg ∈ ops.zip params, arg.1 = ch 's' → ∃ bytes, (strAt arg.2).Holds bytes) :
    (printk fmt params).Fits strAt := by
  refine ⟨fun byte hbyte hzero => hnonzero (hzero ▸ hbyte), hconversions ▸ hlength,
    fun arg harg => ?_⟩
  rw [hconversions] at harg
  exact hstr arg harg

/-- A format for so many arguments, none of them a string. -/
def takesNumbers (fmt : List Byte) (count : Nat) : Bool :=
  !fmt.contains 0 && !(conversions fmt).contains (ch 's')
    && decide ((conversions fmt).length ≤ count)

theorem fits_of_takesNumbers {strAt : Word → Buffer} {fmt : String} {params : List Word}
    {count : Nat} (h : takesNumbers (asciiBytes fmt) count = true) (hlength : params.length = count) :
    (printk fmt params).Fits strAt := by
  simp only [takesNumbers, Bool.and_eq_true, Bool.not_eq_true', List.contains_eq_mem,
    decide_eq_false_iff_not, decide_eq_true_eq] at h
  obtain ⟨⟨hnonzero, hnumbers⟩, hcount⟩ := h
  refine fits_of_conversions hnonzero rfl (hlength ▸ hcount) fun arg harg hop => absurd ?_ hnumbers
  rw [← hop]
  exact (List.of_mem_zip harg).1

theorem debug_fits {strAt : Word → Buffer} {moduleName fmt : String} {params : List Word}
    (h : (printk ("[" ++ moduleName ++ "]: " ++ fmt ++ "\n") params).Fits strAt) :
    ∀ action ∈ debug moduleName fmt params, action.Fits strAt := by
  simp only [debug, List.forall_mem_cons]
  exact ⟨trivial, h, trivial, List.forall_mem_nil _⟩

end Action

theorem conversions_text {text : List Byte} (htext : ch '%' ∉ text) (fmt : List Byte) :
    conversions (text ++ fmt) = conversions fmt := by
  induction text with
  | nil => rfl
  | cons c text ih =>
      rw [List.mem_cons, not_or] at htext
      rw [List.cons_append, ← ih htext.2]
      conv => lhs; unfold conversions
      rw [if_neg (Ne.symm htext.1)]

theorem panicNoargs_fits (literals : Literals) {msg file : String} (hfile : file ∈ passedTexts)
    (hnonzero : 0 ∉ asciiBytes msg) (hplain : ch '%' ∉ asciiBytes msg) (line : Word) :
    ∀ action ∈ panicNoargs literals msg file line, action.Fits literals.strAt := by
  have hbytes : 0 ∉ asciiBytes ("Kernel panic: " ++ msg ++ " (%s:%d)") := by
    simp only [asciiBytes_append, List.mem_append, not_or]
    exact ⟨⟨by decide, hnonzero⟩, by decide⟩
  have hconversions : conversions (asciiBytes ("Kernel panic: " ++ msg ++ " (%s:%d)"))
      = [ch 's', ch 'd'] := by
    rw [asciiBytes_append, asciiBytes_append, List.append_assoc, conversions_text (by decide),
      conversions_text hplain, asciiBytes_eq rfl]
    decide +kernel
  simp only [panicNoargs, List.forall_mem_cons]
  refine ⟨trivial, Action.fits_of_conversions hbytes hconversions (Nat.le_refl 2)
    fun arg harg hop => ?_, List.forall_mem_nil _⟩
  simp only [List.zip_cons_cons, List.zip_nil_right, List.mem_cons, List.not_mem_nil, or_false] at harg
  obtain rfl | rfl := harg
  · exact ⟨_, literals.holds file hfile⟩
  · exact absurd hop (show ch 'd' ≠ ch 's' by decide)

/-! ### The text of a panic -/

theorem expand_text (strAt : Word → Buffer) {text : List Byte} (htext : ch '%' ∉ text)
    (fmt : List Byte) (params : List Word) :
    expand strAt (text ++ fmt) params = text ++ expand strAt fmt params := by
  induction text with
  | nil => rfl
  | cons c text ih =>
      rw [List.mem_cons, not_or] at htext
      rw [List.cons_append, expand_ordinary strAt (Ne.symm htext.1), ih htext.2, List.cons_append]

theorem expand_plain (strAt : Word → Buffer) {text : List Byte} (htext : ch '%' ∉ text)
    (params : List Word) : expand strAt text params = text := by
  have h := expand_text strAt htext [] params
  rw [List.append_nil] at h
  exact h.trans (List.append_nil text)

theorem Literals.conversionText_eq (literals : Literals) {text : String} (h : text ∈ passedTexts) :
    conversionText literals.strAt (ch 's') (literals.address text) = asciiBytes text :=
  (literals.holds text h).text_eq

theorem expand_panic (literals : Literals) {msg file : String} (hfile : file ∈ passedTexts)
    (hmsg : ch '%' ∉ asciiBytes msg) (line : Word) :
    expand literals.strAt (asciiBytes ("Kernel panic: " ++ msg ++ " (%s:%d)"))
        [literals.address file, line]
      = asciiBytes ("Kernel panic: " ++ msg ++ " (" ++ file ++ ":") ++ numberText 10 line
        ++ asciiBytes ")" := by
  have hstr : ch 's' ∈ conversionChars := by decide
  have hint : ch 'd' ∈ conversionChars := by decide
  have hend : asciiBytes " (%s:%d)" = asciiBytes " (" ++ ch '%' :: ch 's' :: (asciiBytes ":" ++
      ch '%' :: ch 'd' :: asciiBytes ")") := by decide
  have hnumber : conversionText literals.strAt (ch 'd') line = numberText 10 line := rfl
  have hlast : expand literals.strAt (asciiBytes ")") [] = asciiBytes ")" := rfl
  simp only [asciiBytes_append, hend, List.append_assoc]
  rw [expand_text _ (by decide), expand_text _ hmsg, expand_text _ (by decide),
    expand_conversion _ hstr, literals.conversionText_eq hfile, expand_text _ (by decide),
    expand_conversion _ hint, hnumber, hlast]

/-! ### The console and the terminal -/

/-- The console shows the terminal, and is consistent. -/
structure Displays (s : Vga) (t : Terminal) : Prop where
  shows : Shows s t
  consistent : s.Consistent

theorem displays_vgaInit (videoMemory : Nat → Cell) (crtc : Crtc) :
    Displays (vgaInit (.boot videoMemory crtc)) (.empty colorBlack colorWhite) :=
  ⟨vgaClear_shows rfl rfl, vgaClear_consistent (List.forall_mem_nil _)⟩

theorem Displays.putc {s : Vga} {t : Terminal} (h : Displays s t) (c : Byte) :
    Displays (vgaPutc s c) (t.putc c) :=
  ⟨vgaPutc_shows h.shows c, vgaPutc_consistent s c h.consistent⟩

theorem Displays.setForegroundColor {s : Vga} {t : Terminal} (h : Displays s t) (colour : Byte) :
    Displays (vgaSetForegroundColor colour s) (t.setForegroundColor colour) where
  shows := ⟨h.shows.mirrors, h.shows.cursorX, h.shows.cursorY, h.shows.backColour, rfl⟩
  consistent := ⟨h.consistent.cursorX_lt, h.consistent.cursorY_lt, h.consistent.location,
    h.consistent.inRange⟩

/-- Text in any order and colour: the console follows the terminal. -/
theorem Displays.action (strAt : Word → Buffer) {s : Vga} {t : Terminal} (h : Displays s t)
    (action : Action) (hfits : action.Fits strAt) :
    ∃ s', action.onConsole strAt s = some s' ∧ Displays s' (action.onTerminal strAt t) := by
  cases action with
  | setFgColor colour => exact ⟨_, rfl, h.setForegroundColor colour⟩
  | printk fmt params =>
      obtain ⟨hnonzero, hargs⟩ := hfits
      exact ⟨_, printk_spec vgaPutc strAt (literal_holds hnonzero) hargs s,
        List.foldl_rel h fun c _ _ _ h' => h'.putc c⟩
  | outb | outbOr | call => exact ⟨s, rfl, h⟩

theorem Displays.actions {strAt : Word → Buffer} {s : Vga} {t : Terminal} (h : Displays s t)
    {actions : List Action} (hfits : ∀ action ∈ actions, action.Fits strAt) :
    ∃ s', actions.foldlM (Action.onConsole strAt) s = some s'
      ∧ Displays s' (actions.foldl (Action.onTerminal strAt) t) :=
  foldlM_simulation Displays (Action.Fits strAt) (fun _ _ action hok h => h.action strAt action hok)
    actions hfits h

end Brunix
