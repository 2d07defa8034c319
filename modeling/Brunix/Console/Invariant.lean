import Brunix.Stdio.Printk

/-!
# The console between calls

Between two calls the cursor is on the screen and the CRT controller draws it where the variables say
it is. Inside a call neither holds: the branch on the character may leave column 80 or row 25, though
never both, and only the last stage writes the location registers. The stages are taken in order, and
each hands the next one a weaker bound. Nothing any of them touched on the way was off the screen or
too large for its variable.
-/

namespace Brunix

open Vga Basis

/-- Everything touched so far was on the screen and fitted its variable. -/
def Vga.InRange (s : Vga) : Prop := ∀ access ∈ s.accesses, access.Ok

/-- The console between calls. -/
structure Vga.Consistent (s : Vga) : Prop where
  cursorX_lt : s.cursorX < 80
  cursorY_lt : s.cursorY < 25
  location : s.crtc.location = 80 * s.cursorY + s.cursorX
  inRange : s.InRange

/-! ### The stages of a character -/

/-- The console after the branch on the character. -/
structure Branched (s : Vga) : Prop where
  cursorX_le : s.cursorX ≤ 80
  cursorY_le : s.cursorY ≤ 25
  near : s.cursorX < 80 ∨ s.cursorY < 25
  inRange : s.InRange

/-- The console after the line wrap. -/
structure Wrapped (s : Vga) : Prop where
  cursorX_lt : s.cursorX < 80
  cursorY_le : s.cursorY ≤ 25
  inRange : s.InRange

theorem setCursorX_inRange {s : Vga} (h : s.InRange) {value : Int} (hlow : 0 ≤ value)
    (hhigh : value < 256) : (s.setCursorX value).InRange :=
  List.forall_mem_cons.mpr ⟨⟨hlow, hhigh⟩, h⟩

theorem setCursorY_inRange {s : Vga} (h : s.InRange) {value : Int} (hlow : 0 ≤ value)
    (hhigh : value < 256) : (s.setCursorY value).InRange :=
  List.forall_mem_cons.mpr ⟨⟨hlow, hhigh⟩, h⟩

theorem storeCell_inRange {s : Vga} (h : s.InRange) {cell : Nat} (hcell : cell < 2000)
    (value : Cell) : (s.storeCell cell value).InRange :=
  List.forall_mem_cons.mpr ⟨hcell, h⟩

theorem putcBranch_branched {s : Vga} (h : s.Consistent) (c : Byte) : Branched (putcBranch c s) := by
  have hx := h.cursorX_lt
  have hy := h.cursorY_lt
  have hsame : Branched s := ⟨by omega, by omega, .inl hx, h.inRange⟩
  have hmove {x : Nat} (hle : x ≤ 80) : Branched (s.setCursorX x) := by
    have hvalue : (s.setCursorX x).cursorX = x := by
      simp only [setCursorX_cursorX]
      omega
    refine ⟨?_, hsame.cursorY_le, .inr hy, setCursorX_inRange h.inRange (by omega) (by omega)⟩
    rw [hvalue]
    exact hle
  rcases char_cases c with rfl | rfl | rfl | rfl | hprint | hinert
  · by_cases hzero : s.cursorX = 0
    · rw [putcBranch_backspace_zero s hzero]
      exact hsame
    · rw [putcBranch_backspace s hzero, show (s.cursorX - 1 : Int) = (s.cursorX - 1 : Nat) by omega]
      exact hmove (by omega)
  · rw [putcBranch_tab, tabStop_eq (by omega)]
    exact hmove (by omega)
  · rw [putcBranch_return]
    exact hmove (Nat.zero_le _)
  · rw [putcBranch_newline]
    refine ⟨show 0 ≤ 80 by omega, ?_, .inl (show 0 < 80 by omega), ?_⟩
    · simp only [setCursorY_cursorY]
      omega
    · exact setCursorY_inRange (setCursorX_inRange h.inRange (by omega) (by omega)) (by omega)
        (by omega)
  · rw [putcBranch_printable s hprint]
    refine ⟨?_, hsame.cursorY_le, .inr hy, ?_⟩
    · simp only [setCursorX_cursorX]
      omega
    · exact setCursorX_inRange (storeCell_inRange h.inRange (by omega) _) (by omega) (by omega)
  · rw [putcBranch_inert s hinert]
    exact hsame

theorem wrapLine_wrapped {s : Vga} (h : Branched s) : Wrapped (wrapLine s) := by
  have hnear := h.near
  rw [wrapLine]
  split
  · refine ⟨show 0 < 80 by omega, ?_, ?_⟩
    · simp only [setCursorY_cursorY]
      omega
    · exact setCursorY_inRange (setCursorX_inRange h.inRange (by omega) (by omega)) (by omega)
        (by omega)
  · exact ⟨by omega, h.cursorY_le, h.inRange⟩

/-- The last stage: the cursor is back on the screen, and the controller is told. -/
theorem moveCursor_consistent {s : Vga} (hx : s.cursorX < 80) (hy : s.cursorY < 25)
    (h : s.InRange) : (moveCursor s).Consistent := by
  refine ⟨hx, hy, ?_, List.forall_mem_cons.mpr ⟨⟨by omega, by omega⟩, h⟩⟩
  rw [moveCursor_location (by omega), moveCursor_cursorX, moveCursor_cursorY, Nat.mul_comm]

theorem scroll_consistent {s : Vga} (h : Wrapped s) : (moveCursor (scroll s)).Consistent := by
  by_cases hfull : 25 ≤ s.cursorY
  · obtain ⟨log, hscroll, hlog⟩ := scroll_spec hfull
    rw [hscroll]
    exact moveCursor_consistent h.cursorX_lt (show 24 < 25 by omega)
      (List.forall_mem_append.mpr ⟨hlog, h.inRange⟩)
  · rw [scroll_of_lt (by omega)]
    exact moveCursor_consistent h.cursorX_lt (by omega) h.inRange

theorem vgaPutc_consistent (s : Vga) (c : Byte) (h : s.Consistent) : (vgaPutc s c).Consistent :=
  scroll_consistent (wrapLine_wrapped (putcBranch_branched h c))

theorem vgaClear_consistent {s : Vga} (h : s.InRange) : (vgaClear s).Consistent := by
  obtain ⟨log, hclear, hlog⟩ := vgaClear_spec s
  rw [hclear]
  exact moveCursor_consistent (show 0 < 80 by omega) (show 0 < 25 by omega)
    (List.forall_mem_append.mpr ⟨hlog, h⟩)

/-! ### Runs -/

/-- The calls that reach the console. A string is what lies in memory at its address. -/
inductive OutputCall
  | putc (c : Byte)
  | puts (str : Buffer)
  | puthex (n : Word)
  | putdec (n : Word)
  | putbin (n : Word)
  | setForegroundColor (colour : Byte)
  | clear
  | printk (fmt : Buffer) (params : List Word)

def OutputCall.run (strAt : Word → Buffer) (s : Vga) : OutputCall → Option Vga
  | .putc c => some (vgaPutc s c)
  | .puts str => vgaPuts vgaPutc str s
  | .puthex n => vgaPuthex vgaPutc n s
  | .putdec n => vgaPutdec vgaPutc n s
  | .putbin n => vgaPutbin vgaPutc n s
  | .setForegroundColor colour => some (vgaSetForegroundColor colour s)
  | .clear => some (vgaClear s)
  | .printk fmt params => Brunix.printk vgaPutc strAt fmt params s

/-- The call is given strings, and `printk` the arguments its format asks for. -/
def OutputCall.Fits (strAt : Word → Buffer) : OutputCall → Prop
  | .puts str => ∃ bytes, str.Holds bytes
  | .printk fmt params => ∃ bytes, fmt.Holds bytes ∧ ArgsFit strAt bytes params
  | _ => True

theorem OutputCall.run_consistent {strAt : Word → Buffer} {s s' : Vga} (call : OutputCall)
    (h : s.Consistent) (hrun : call.run strAt s = some s') : s'.Consistent := by
  cases call with
  | putc c => exact Option.some.inj hrun ▸ vgaPutc_consistent s c h
  | puts str => exact vgaPuts_invariant vgaPutc_consistent hrun h
  | puthex n => exact vgaPuthex_invariant vgaPutc_consistent hrun h
  | putdec n => exact vgaWriteNumber_invariant vgaPutc_consistent hrun h
  | putbin n => exact vgaWriteNumber_invariant vgaPutc_consistent hrun h
  | setForegroundColor colour =>
      obtain rfl := Option.some.inj hrun
      exact ⟨h.cursorX_lt, h.cursorY_lt, h.location, h.inRange⟩
  | clear => exact Option.some.inj hrun ▸ vgaClear_consistent h.inRange
  | printk fmt params => exact printk_invariant vgaPutc_consistent hrun h

theorem OutputCall.run_defined {strAt : Word → Buffer} (s : Vga) (call : OutputCall)
    (hfits : call.Fits strAt) : ∃ s', call.run strAt s = some s' := by
  cases call with
  | putc c => exact ⟨_, rfl⟩
  | puts str =>
      obtain ⟨bytes, hbytes⟩ := hfits
      exact ⟨_, vgaPuts_of_holds vgaPutc hbytes s⟩
  | puthex n => exact ⟨_, vgaPuthex_spec vgaPutc n s⟩
  | putdec n => exact ⟨_, vgaPutdec_spec vgaPutc n s⟩
  | putbin n => exact ⟨_, vgaPutbin_spec vgaPutc n s⟩
  | setForegroundColor colour => exact ⟨_, rfl⟩
  | clear => exact ⟨_, rfl⟩
  | printk fmt params =>
      obtain ⟨bytes, hbytes, hargs⟩ := hfits
      exact ⟨_, printk_spec vgaPutc strAt hbytes hargs s⟩

/-- The console after `vga_init` and a sequence of calls, if none of them reads what it may not. -/
def outputRun (videoMemory : Nat → Cell) (crtc : Crtc) (strAt : Word → Buffer)
    (calls : List OutputCall) : Option Vga :=
  calls.foldlM (OutputCall.run strAt) (vgaInit (.boot videoMemory crtc))

/-- After `vga_init` and any calls the cursor is on the screen, the hardware draws it there, and nothing
off the screen was touched and no cursor value wrapped around. Calls that are given their strings and
arguments all run to their end. -/
theorem output_consistent (videoMemory : Nat → Cell) (crtc : Crtc) (strAt : Word → Buffer)
    (calls : List OutputCall) :
    (∀ s, outputRun videoMemory crtc strAt calls = some s → s.Consistent) ∧
      ((∀ call ∈ calls, call.Fits strAt) →
        ∃ s, outputRun videoMemory crtc strAt calls = some s) := by
  have hinit : (vgaInit (.boot videoMemory crtc)).Consistent :=
    vgaClear_consistent (List.forall_mem_nil _)
  constructor
  · exact fun s hrun => foldlM_invariant Vga.Consistent
      (fun call _ _ h hcall => call.run_consistent h hcall) calls hinit hrun
  · exact fun hfits => foldlM_defined
      (fun call s hcall => call.run_defined s (hfits call hcall)) _

/-- A run with every kind of argument. -/
theorem output_consistent_run :
    ∃ s, outputRun (fun _ => 0) ⟨0, fun _ => 0⟩ (fun _ => literal "root")
        [.putc (ch 'A'), .puts (literal "\n"), .clear, .printk (literal "%s: %u") [0x1000, 7]] = some s
      ∧ s.Consistent := by
  have hfits : ∀ call ∈ [OutputCall.putc (ch 'A'), .puts (literal "\n"), .clear,
      .printk (literal "%s: %u") [0x1000, 7]], call.Fits fun _ => literal "root" := by
    simp only [List.forall_mem_cons]
    refine ⟨trivial, ⟨asciiBytes "\n", by decide, [], rfl⟩, trivial, ?_, List.forall_mem_nil _⟩
    refine ⟨asciiBytes "%s: %u", ⟨by decide, [], rfl⟩, by decide, fun _ _ _ => ?_⟩
    exact ⟨asciiBytes "root", by decide, [], rfl⟩
  obtain ⟨hinv, hdefined⟩ := output_consistent (fun _ => 0) ⟨0, fun _ => 0⟩
    (fun _ => literal "root")
    [.putc (ch 'A'), .puts (literal "\n"), .clear, .printk (literal "%s: %u") [0x1000, 7]]
  obtain ⟨s, hrun⟩ := hdefined hfits
  exact ⟨s, hrun, hinv s hrun⟩

end Brunix
