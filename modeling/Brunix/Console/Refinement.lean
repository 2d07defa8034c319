import Brunix.Console.Terminal

/-!
# The scrolling console refines the unbounded terminal

The 25 rows of the framebuffer are the rows of the terminal from `top` on, and the cursor is the
position relative to it. A character acts in three stages. The branch on the character may leave the
cursor in column 80 or in row 25, the line wrap repairs the column, and the scroll repairs the row:
it drops the top row, and the row it fills with blanks is one the terminal has not reached.
-/

namespace Brunix

open Vga Basis

/-- The rows of the framebuffer are the rows of `cells` from `top` on. -/
def Mirrors (videoMemory : Nat → Cell) (top : Nat) (cells : Nat → Nat → Cell) : Prop :=
  ∀ r < 25, ∀ x < 80, videoMemory (80 * r + x) = cells (top + r) x

/-- What the console shows of a terminal. -/
structure Shows (s : Vga) (t : Terminal) : Prop where
  mirrors : Mirrors s.videoMemory t.top t.cells
  cursorX : s.cursorX = t.col
  cursorY : s.cursorY = t.row - t.top
  backColour : s.backColour = t.backColour
  foreColour : s.foreColour = t.foreColour

theorem Shows.cursorX_lt {s : Vga} {t : Terminal} (h : Shows s t) : s.cursorX < 80 :=
  h.cursorX ▸ t.col_lt

theorem Shows.cursorY_lt {s : Vga} {t : Terminal} (h : Shows s t) : s.cursorY < 25 := by
  rw [h.cursorY, Terminal.top]
  omega

theorem Shows.row_eq {s : Vga} {t : Terminal} (h : Shows s t) : t.row = t.top + s.cursorY := by
  rw [h.cursorY, Terminal.top]
  omega

/-! ### The stages of a character -/

/-- Scrolling moves the view down by one row, if the row below the view is blank. -/
theorem Mirrors.scrolled {videoMemory : Nat → Cell} {top : Nat} {cells : Nat → Nat → Cell}
    (h : Mirrors videoMemory top cells) (hblank : ∀ x, cells (top + 25) x = blank) :
    Mirrors (scrolled videoMemory) (top + 1) cells := by
  intro r hr x hx
  rw [scrolled_apply]
  by_cases hlast : r < 24
  · rw [if_pos (by omega), show 80 * r + x + 80 = 80 * (r + 1) + x by ring, h (r + 1) (by omega) x hx]
    exact congrArg (fun row => cells row x) (by omega)
  · obtain rfl : r = 24 := by omega
    rw [if_neg (by omega), if_pos (by omega), show top + 1 + 24 = top + 25 by omega, hblank]

theorem Mirrors.store {s : Vga} {t : Terminal} (h : Shows s t) (value : Cell) :
    Mirrors (Function.update s.videoMemory (s.cursorY * 80 + s.cursorX) value) t.top
      (t.store value).cells := by
  intro r hr x hx
  have hcol := h.cursorX_lt
  have hrow := h.row_eq
  rw [Terminal.store_cells]
  by_cases hcell : t.top + r = t.row ∧ x = t.col
  · rw [if_pos hcell, h.cursorX, show 80 * r + x = s.cursorY * 80 + t.col by omega,
      Function.update_self]
  · have hne : 80 * r + x ≠ s.cursorY * 80 + s.cursorX := by
      rw [h.cursorX] at hcol ⊢
      omega
    rw [if_neg hcell, Function.update_of_ne hne, h.mirrors r hr x hx]

/-- The scroll catches up with a position that moved down by at most one row. -/
theorem scroll_shows {s : Vga} (t : Terminal) {t' : Terminal} (hcells : t'.cells = t.cells)
    (hmirrors : Mirrors s.videoMemory t.top t.cells) (hx : s.cursorX = t'.col)
    (hy : t.top + s.cursorY = t'.row) (hlow : t.row ≤ t'.row) (hhigh : t'.row ≤ t.row + 1)
    (hback : s.backColour = t'.backColour) (hfore : s.foreColour = t'.foreColour) :
    Shows (moveCursor (scroll s)) t' := by
  have htop : t.top = t.row - 24 := rfl
  have htop' : t'.top = t'.row - 24 := rfl
  by_cases hfull : 25 ≤ s.cursorY
  · obtain ⟨log, hscroll, _⟩ := scroll_spec hfull
    have hbelow : ∀ x, t.cells (t.top + 25) x = blank := fun x =>
      blank_eq ▸ t.blank_below _ x (by omega)
    have hnext : t'.top = t.top + 1 := by omega
    rw [hscroll]
    refine ⟨?_, hx, ?_, hback, hfore⟩
    · rw [hcells, hnext]
      exact hmirrors.scrolled hbelow
    · change 24 = t'.row - t'.top
      omega
  · have hsame : t'.top = t.top := by omega
    rw [scroll_of_lt (by omega)]
    refine ⟨?_, hx, ?_, hback, hfore⟩
    · rw [hcells, hsame]
      exact hmirrors
    · change s.cursorY = t'.row - t'.top
      omega

/-- The last stages of a character: wherever the branches left the cursor, wrapping, scrolling and
moving the hardware cursor bring the console to the terminal moved there. -/
theorem settle_shows {s : Vga} {t : Terminal} {row col : Nat} (hrow : t.row ≤ row)
    (hmirrors : Mirrors s.videoMemory t.top t.cells) (hx : s.cursorX = col)
    (hy : t.top + s.cursorY = row) (hcol : col ≤ 80) (hnear : row = t.row ∨ row = t.row + 1 ∧ col = 0)
    (hback : s.backColour = t.backColour) (hfore : s.foreColour = t.foreColour) :
    Shows (moveCursor (scroll (wrapLine s))) (t.moveTo row col hrow) := by
  have htop : t.top = t.row - 24 := rfl
  by_cases hwrap : col < 80
  · rw [wrapLine, if_neg (by omega), Terminal.moveTo, dif_pos hwrap]
    exact scroll_shows t rfl hmirrors hx hy hrow (by change row ≤ t.row + 1; omega) hback hfore
  · rw [wrapLine, if_pos (by omega), Terminal.moveTo, dif_neg hwrap]
    have hy' : ((s.cursorY + 1 : Int) % 256).toNat = s.cursorY + 1 := by omega
    refine scroll_shows t rfl hmirrors rfl ?_ ?_ ?_ hback hfore
    · change t.top + ((s.cursorY + 1 : Int) % 256).toNat = row + 1
      omega
    · change t.row ≤ row + 1
      omega
    · change row + 1 ≤ t.row + 1
      omega

theorem glyph_eq_cellOf {s : Vga} {t : Terminal} (hback : s.backColour = t.backColour)
    (hfore : s.foreColour = t.foreColour) (c : Byte) : glyph c s = t.cellOf c := by
  simp only [glyph, attributeByte, Terminal.cellOf, hback, hfore]
  generalize (t.backColour <<< 4 ||| t.foreColour &&& 0xF) = high
  apply BitVec.eq_of_getLsbD_eq
  intro bit hbit
  rw [show (high ++ c : BitVec 16).getLsbD bit = if bit < 8 then c.getLsbD bit else
    high.getLsbD (bit - 8) from BitVec.getLsbD_append]
  by_cases hlow : bit < 8
  · simp [hlow, hbit]
  · have hhigh : c.getLsbD bit = false := BitVec.getLsbD_of_ge c bit (by omega)
    simp [hlow, hbit, hhigh]

/-- `vga_putc` does to the screen what the terminal does to its view. -/
theorem vgaPutc_shows {s : Vga} {t : Terminal} (h : Shows s t) (c : Byte) :
    Shows (vgaPutc s c) (t.putc c) := by
  have hcol := h.cursorX_lt
  have hx := h.cursorX
  have hrow := h.row_eq
  have hrow25 := h.cursorY_lt
  have hstay : Shows (moveCursor (scroll (wrapLine s))) t := by
    rw [wrapLine, if_neg (by omega), scroll_of_lt hrow25]
    exact ⟨h.mirrors, h.cursorX, h.cursorY, h.backColour, h.foreColour⟩
  rw [vgaPutc]
  rcases char_cases c with rfl | rfl | rfl | rfl | hprint | hinert
  · by_cases hzero : s.cursorX = 0
    · rw [putcBranch_backspace_zero s hzero, t.putc_backspace_zero (by omega)]
      exact hstay
    · rw [putcBranch_backspace s hzero, t.putc_backspace (by omega)]
      refine settle_shows _ h.mirrors ?_ hrow.symm (by omega) (.inl rfl) h.backColour h.foreColour
      change ((s.cursorX - 1 : Int) % 256).toNat = t.col - 1
      omega
  · rw [putcBranch_tab, t.putc_tab]
    refine settle_shows _ h.mirrors ?_ hrow.symm (by omega) (.inl rfl) h.backColour h.foreColour
    change ((tabStop s.cursorX : Int) % 256).toNat = _
    rw [tabStop_eq (by omega)]
    omega
  · rw [putcBranch_return, t.putc_return]
    exact settle_shows _ h.mirrors rfl hrow.symm (by omega) (.inl rfl) h.backColour h.foreColour
  · rw [putcBranch_newline, t.putc_newline]
    refine settle_shows _ h.mirrors rfl ?_ (by omega) (.inr ⟨rfl, rfl⟩) h.backColour h.foreColour
    change t.top + ((s.cursorY + 1 : Int) % 256).toNat = t.row + 1
    omega
  · rw [putcBranch_printable s hprint, t.putc_printable hprint,
      glyph_eq_cellOf h.backColour h.foreColour]
    refine settle_shows (t := t.store (t.cellOf c)) _ (Mirrors.store h _) ?_ hrow.symm (by omega)
      (.inl rfl) h.backColour h.foreColour
    change ((s.cursorX + 1 : Int) % 256).toNat = t.col + 1
    omega
  · rw [putcBranch_inert s hinert, t.putc_inert hinert]
    exact hstay

/-! ### Runs -/

inductive ConsoleCall
  | putc (c : Byte)
  | puts (str : CString)
  | setForegroundColor (colour : Byte)
  | clear

def ConsoleCall.run (s : Vga) : ConsoleCall → Option Vga
  | .putc c => some (vgaPutc s c)
  | .puts str => vgaPuts vgaPutc str.buffer s
  | .setForegroundColor colour => some (vgaSetForegroundColor colour s)
  | .clear => some (vgaClear s)

def Terminal.call (t : Terminal) : ConsoleCall → Terminal
  | .putc c => t.putc c
  | .puts str => t.puts str
  | .setForegroundColor colour => t.setForegroundColor colour
  | .clear => t.clear

theorem vgaClear_shows {s : Vga} {backColour foreColour : Byte} (hback : s.backColour = backColour)
    (hfore : s.foreColour = foreColour) :
    Shows (vgaClear s) (.empty backColour foreColour) := by
  obtain ⟨log, hclear, _⟩ := vgaClear_spec s
  rw [hclear]
  refine ⟨fun r hr x hx => ?_, rfl, rfl, hback, hfore⟩
  change filled 0 2000 blank s.videoMemory (80 * r + x) = 0x0F20
  rw [filled, if_pos (by omega), blank_eq]

theorem call_shows {s : Vga} {t : Terminal} (call : ConsoleCall) (h : Shows s t) :
    ∃ s', call.run s = some s' ∧ Shows s' (t.call call) := by
  cases call with
  | putc c => exact ⟨_, rfl, vgaPutc_shows h c⟩
  | puts str =>
      exact ⟨_, vgaPuts_cString vgaPutc str s, List.foldl_rel h fun c _ _ _ h' => vgaPutc_shows h' c⟩
  | setForegroundColor colour =>
      exact ⟨_, rfl, h.mirrors, h.cursorX, h.cursorY, h.backColour, rfl⟩
  | clear => exact ⟨_, rfl, vgaClear_shows h.backColour h.foreColour⟩

/-- Whatever is on the screen at boot, after `vga_init` and any calls the 25 rows show the terminal from
its `top` on, with the cursor at its position. -/
theorem console_refines_terminal (videoMemory : Nat → Cell) (crtc : Crtc)
    (calls : List ConsoleCall) :
    ∃ s, calls.foldlM ConsoleCall.run (vgaInit (.boot videoMemory crtc)) = some s ∧
      Shows s (calls.foldl Terminal.call (.empty colorBlack colorWhite)) :=
  foldlM_simulation Shows (fun _ => True) (fun _ _ call _ h => call_shows call h) calls
    (fun _ _ => trivial) (vgaClear_shows rfl rfl)

end Brunix
