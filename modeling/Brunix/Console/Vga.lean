import Brunix.Basis.Memory
import Mathlib.Logic.Function.Basic
import Mathlib.Tactic.Ring
import Mathlib.Tactic.Simps.Basic

/-!
# The text console of `vga.c`

The framebuffer is the array `video_memory` of 16-bit cells, seen from its base and without an upper
end: an index past the 2000 cells of the screen is a store to whatever follows, so the model keeps
it. The cursor variables are `uint8_t`, and every assignment to one reduces modulo 256. The record
`accesses` is not part of the machine. It lists what the code touched, newest first: the cells loaded
and stored, and the values assigned to the narrow cursor variables before they were reduced.
-/

namespace Brunix

open Basis

abbrev Cell := BitVec 16

/-! ### Screen colours, `brunix/screen.h` -/

def colorBlack : Byte := 0x00
def colorRed : Byte := 0x04
def colorLightGrey : Byte := 0x07
def colorWhite : Byte := 0x0F

/-! ### The CRT controller

An index register selects which register a write to the data port reaches. Registers 14 and 15 hold
the high and the low byte of the cursor location. -/

def fbCommandPort : BitVec 16 := 0x3D4
def fbDataPort : BitVec 16 := 0x3D5
def fbHighByteCommand : Byte := 14
def fbLowByteCommand : Byte := 15

structure Crtc where
  index : Byte
  regs : Byte → Byte

/-- A byte written to a port, as the CRT controller sees it. -/
def Crtc.outb (crtc : Crtc) (port : BitVec 16) (value : Byte) : Crtc :=
  if port = fbCommandPort then { crtc with index := value }
  else if port = fbDataPort then { crtc with regs := Function.update crtc.regs crtc.index value }
  else crtc

/-- The location the hardware draws its cursor at. -/
def Crtc.location (crtc : Crtc) : Nat :=
  (crtc.regs fbHighByteCommand).toNat * 256 + (crtc.regs fbLowByteCommand).toNat

/-! ### The state of the console -/

inductive Access
  | load (cell : Nat)
  | store (cell : Nat)
  | cursorX (value : Int)
  | cursorY (value : Int)
  | cursorLocation (value : Int)
  deriving DecidableEq, Repr

/-- A framebuffer access is on the screen, and an assignment to a narrow variable keeps its value. -/
def Access.Ok : Access → Prop
  | .load cell => cell < 2000
  | .store cell => cell < 2000
  | .cursorX value => 0 ≤ value ∧ value < 256
  | .cursorY value => 0 ≤ value ∧ value < 256
  | .cursorLocation value => 0 ≤ value ∧ value < 65536

instance : DecidablePred Access.Ok
  | .load cell => inferInstanceAs (Decidable (cell < 2000))
  | .store cell => inferInstanceAs (Decidable (cell < 2000))
  | .cursorX value => inferInstanceAs (Decidable (0 ≤ value ∧ value < 256))
  | .cursorY value => inferInstanceAs (Decidable (0 ≤ value ∧ value < 256))
  | .cursorLocation value => inferInstanceAs (Decidable (0 ≤ value ∧ value < 65536))

structure Vga where
  videoMemory : Nat → Cell
  cursorX : Nat
  cursorY : Nat
  backColour : Byte
  foreColour : Byte
  crtc : Crtc
  accesses : List Access

namespace Vga

@[simps] def storeCell (i : Nat) (value : Cell) (s : Vga) : Vga :=
  { s with videoMemory := Function.update s.videoMemory i value, accesses := .store i :: s.accesses }

@[simps] def copyCell (dst src : Nat) (s : Vga) : Vga :=
  { s with
    videoMemory := Function.update s.videoMemory dst (s.videoMemory src)
    accesses := .store dst :: .load src :: s.accesses }

@[simps] def setCursorX (value : Int) (s : Vga) : Vga :=
  { s with cursorX := (value % 256).toNat, accesses := .cursorX value :: s.accesses }

@[simps] def setCursorY (value : Int) (s : Vga) : Vga :=
  { s with cursorY := (value % 256).toNat, accesses := .cursorY value :: s.accesses }

@[simps] def outb (port : BitVec 16) (value : Byte) (s : Vga) : Vga :=
  { s with crtc := s.crtc.outb port value }

@[simps] def setCursorLocation (s : Vga) : Vga :=
  { s with accesses := .cursorLocation (s.cursorY * 80 + s.cursorX) :: s.accesses }

/-- The value `move_cursor` keeps in its `uint16_t`. -/
def cursorLocation (s : Vga) : BitVec 16 := BitVec.ofNat 16 (s.cursorY * 80 + s.cursorX)

/-- The attribute byte of a character in the current colours. -/
def attributeByte (s : Vga) : Byte := (s.backColour <<< 4) ||| (s.foreColour &&& 0x0F)

end Vga

open Vga

/-! ### The functions of `vga.c` -/

def vgaSetForegroundColor (colour : Byte) (s : Vga) : Vga :=
  { s with foreColour := colour }

def moveCursor (s : Vga) : Vga :=
  let location := s.cursorLocation
  s.setCursorLocation
    |> outb fbCommandPort fbHighByteCommand
    |> outb fbDataPort ((location >>> 8).setWidth 8)
    |> outb fbCommandPort fbLowByteCommand
    |> outb fbDataPort (location.setWidth 8)

/-- A space in the default colours. -/
def blank : Cell :=
  let attributeByte : Byte := (0 <<< 4) ||| (15 &&& 0x0F)
  0x20 ||| (attributeByte.setWidth 16 <<< 8)

def scroll (s : Vga) : Vga :=
  if 25 ≤ s.cursorY then
    s |> forRange (0 * 80) (24 * 80) (fun i => copyCell i (i + 80))
      |> forRange (24 * 80) (25 * 80) (fun i => storeCell i blank)
      |> setCursorY 24
  else s

/-- `(cursor_x+8) & ~(8-1)` in `int`. -/
def tabStop (x : Nat) : Nat := (BitVec.ofNat 32 (x + 8) &&& ~~~(8 - 1)).toNat

/-- The cell `c | attribute` of a character in the current colours. -/
def glyph (c : Byte) (s : Vga) : Cell := c.setWidth 16 ||| (s.attributeByte.setWidth 16 <<< 8)

def putcBranch (c : Byte) (s : Vga) : Vga :=
  if c = 0x08 ∧ s.cursorX ≠ 0 then s.setCursorX (s.cursorX - 1)
  else if c = 0x09 then s.setCursorX (tabStop s.cursorX)
  else if c = 0x0D then s.setCursorX 0
  else if c = 0x0A then (s.setCursorX 0).setCursorY (s.cursorY + 1)
  else if 0x20 ≤ c then
    (s.storeCell (s.cursorY * 80 + s.cursorX) (glyph c s)).setCursorX (s.cursorX + 1)
  else s

def wrapLine (s : Vga) : Vga :=
  if 80 ≤ s.cursorX then (s.setCursorX 0).setCursorY (s.cursorY + 1) else s

def vgaPutc (s : Vga) (c : Byte) : Vga :=
  moveCursor (scroll (wrapLine (putcBranch c s)))

def vgaClear (s : Vga) : Vga :=
  s |> forRange 0 (80 * 25) (fun i => storeCell i blank)
    |> setCursorX 0
    |> setCursorY 0
    |> moveCursor

def vgaInit (s : Vga) : Vga := vgaClear s

/-- The console at boot: the initialised globals, over whatever the loader left on the screen. -/
def Vga.boot (videoMemory : Nat → Cell) (crtc : Crtc) : Vga where
  videoMemory := videoMemory
  cursorX := 0
  cursorY := 0
  backColour := colorBlack
  foreColour := colorWhite
  crtc := crtc
  accesses := []

/-! ### What each function does to each field -/

theorem blank_eq : blank = 0x0F20 := by decide

theorem tabStop_eq {x : Nat} (hx : x < 256) : tabStop x = x / 8 * 8 + 8 := by
  revert x
  decide +kernel

/-! ### Scrolling

Both loops of `scroll` touch the framebuffer and nothing else. The copying loop reads one row below
the cell it writes, which it has not written yet, so it moves the old contents. -/

/-- A framebuffer whose cells in an interval were each copied from one row below. -/
def shifted (lo hi : Nat) (cells : Nat → Cell) : Nat → Cell := fun cell =>
  if lo ≤ cell ∧ cell < hi then cells (cell + 80) else cells cell

/-- A framebuffer with an interval filled. -/
def filled (lo hi : Nat) (value : Cell) (cells : Nat → Cell) : Nat → Cell := fun cell =>
  if lo ≤ cell ∧ cell < hi then value else cells cell

/-- A framebuffer scrolled up by one row. -/
def scrolled (cells : Nat → Cell) : Nat → Cell := filled 1920 2000 blank (shifted 0 1920 cells)

theorem shifted_self (lo : Nat) (cells : Nat → Cell) : shifted lo lo cells = cells :=
  funext fun _ => if_neg (by omega)

theorem filled_self (lo : Nat) (value : Cell) (cells : Nat → Cell) :
    filled lo lo value cells = cells :=
  funext fun _ => if_neg (by omega)

theorem shifted_succ {lo i : Nat} (hle : lo ≤ i) (cells : Nat → Cell) :
    Function.update (shifted lo i cells) i (shifted lo i cells (i + 80))
      = shifted lo (i + 1) cells := by
  funext cell
  by_cases hcell : cell = i
  · subst hcell
    rw [Function.update_self, shifted, shifted, if_neg (by omega), if_pos (by omega)]
  · rw [Function.update_of_ne hcell]
    exact if_congr (by omega) rfl rfl

theorem filled_succ {lo i : Nat} (hle : lo ≤ i) (value : Cell) (cells : Nat → Cell) :
    Function.update (filled lo i value cells) i value = filled lo (i + 1) value cells := by
  funext cell
  by_cases hcell : cell = i
  · subst hcell
    rw [Function.update_self, filled, if_pos (by omega)]
  · rw [Function.update_of_ne hcell]
    exact if_congr (by omega) rfl rfl

theorem scrolled_apply (cells : Nat → Cell) (cell : Nat) :
    scrolled cells cell
      = if cell < 1920 then cells (cell + 80) else if cell < 2000 then blank else cells cell := by
  simp only [scrolled, filled, shifted]
  split_ifs <;> first | rfl | omega

theorem copyLoop_spec {lo hi : Nat} (hle : lo ≤ hi) (hhi : hi ≤ 1920) (s : Vga) :
    ∃ log, forRange lo hi (fun i => copyCell i (i + 80)) s
        = { s with videoMemory := shifted lo hi s.videoMemory, accesses := log ++ s.accesses }
      ∧ ∀ access ∈ log, access.Ok := by
  apply forRange_invariant (fun i => copyCell i (i + 80))
    (fun i t => ∃ log, t
        = { s with videoMemory := shifted lo i s.videoMemory, accesses := log ++ s.accesses }
      ∧ ∀ access ∈ log, access.Ok) hle
  · exact ⟨[], by simp only [shifted_self, List.nil_append], by simp⟩
  · intro i t hlo hi' hinv
    obtain ⟨log, rfl, hlog⟩ := hinv
    refine ⟨.store i :: .load (i + 80) :: log, ?_, ?_⟩
    · simp only [copyCell, shifted_succ hlo, List.cons_append]
    · simp only [List.forall_mem_cons]
      exact ⟨show i < 2000 by omega, show i + 80 < 2000 by omega, hlog⟩

theorem fillLoop_spec {lo hi : Nat} (hle : lo ≤ hi) (hhi : hi ≤ 2000) (value : Cell) (s : Vga) :
    ∃ log, forRange lo hi (fun i => storeCell i value) s
        = { s with videoMemory := filled lo hi value s.videoMemory, accesses := log ++ s.accesses }
      ∧ ∀ access ∈ log, access.Ok := by
  apply forRange_invariant (fun i => storeCell i value)
    (fun i t => ∃ log, t
        = { s with videoMemory := filled lo i value s.videoMemory, accesses := log ++ s.accesses }
      ∧ ∀ access ∈ log, access.Ok) hle
  · exact ⟨[], by simp only [filled_self, List.nil_append], by simp⟩
  · intro i t hlo hi' hinv
    obtain ⟨log, rfl, hlog⟩ := hinv
    refine ⟨.store i :: log, ?_, ?_⟩
    · simp only [storeCell, filled_succ hlo, List.cons_append]
    · simp only [List.forall_mem_cons]
      exact ⟨show i < 2000 by omega, hlog⟩

theorem scroll_of_lt {s : Vga} (h : s.cursorY < 25) : scroll s = s :=
  if_neg (by omega)

theorem scroll_spec {s : Vga} (h : 25 ≤ s.cursorY) :
    ∃ log, scroll s = { s with
          videoMemory := scrolled s.videoMemory, cursorY := 24, accesses := log ++ s.accesses }
      ∧ ∀ access ∈ log, access.Ok := by
  obtain ⟨copies, hcopy, hcopies⟩ := copyLoop_spec (show 0 ≤ 1920 by omega) (Nat.le_refl _) s
  obtain ⟨fills, hfill, hfills⟩ := fillLoop_spec (show 1920 ≤ 2000 by omega) (Nat.le_refl _) blank
    { s with videoMemory := shifted 0 1920 s.videoMemory, accesses := copies ++ s.accesses }
  refine ⟨.cursorY 24 :: (fills ++ copies), ?_, ?_⟩
  · rw [scroll, if_pos h, hcopy, hfill]
    simp only [setCursorY, scrolled, List.cons_append, List.append_assoc]
    rfl
  · simp only [List.forall_mem_cons, List.forall_mem_append]
    exact ⟨by decide, hfills, hcopies⟩

theorem vgaClear_spec (s : Vga) :
    ∃ log, vgaClear s = moveCursor { s with
          videoMemory := filled 0 2000 blank s.videoMemory, cursorX := 0, cursorY := 0,
          accesses := log ++ s.accesses }
      ∧ ∀ access ∈ log, access.Ok := by
  obtain ⟨fills, hfill, hfills⟩ := fillLoop_spec (show 0 ≤ 2000 by omega) (Nat.le_refl _) blank s
  refine ⟨.cursorY 0 :: .cursorX 0 :: fills, ?_, ?_⟩
  · rw [vgaClear, show 80 * 25 = 2000 from rfl, hfill]
    rfl
  · simp only [List.forall_mem_cons]
    exact ⟨by decide, by decide, hfills⟩

/-! ### The branches on the character -/

/-- The characters `vga_putc` has no branch for. -/
def Inert (c : Byte) : Prop := c ≠ 0x08 ∧ c ≠ 0x09 ∧ c ≠ 0x0D ∧ c ≠ 0x0A ∧ ¬ 0x20 ≤ c

instance (c : Byte) : Decidable (Inert c) := inferInstanceAs (Decidable (_ ∧ _))

theorem char_cases (c : Byte) :
    c = 0x08 ∨ c = 0x09 ∨ c = 0x0D ∨ c = 0x0A ∨ 0x20 ≤ c ∨ Inert c := by
  unfold Inert
  tauto

theorem ne_control_of_printable {c control : Byte} (h : 0x20 ≤ c) (hcontrol : control < 0x20) :
    c ≠ control := by
  bv_omega

section Branches

variable (s : Vga) {c : Byte}

theorem putcBranch_backspace (h : s.cursorX ≠ 0) :
    putcBranch 0x08 s = s.setCursorX (s.cursorX - 1) := if_pos ⟨rfl, h⟩

theorem putcBranch_backspace_zero (h : s.cursorX = 0) : putcBranch 0x08 s = s := by
  rw [putcBranch, if_neg fun hb => hb.2 h]
  rfl

theorem putcBranch_tab : putcBranch 0x09 s = s.setCursorX (tabStop s.cursorX) := rfl

theorem putcBranch_return : putcBranch 0x0D s = s.setCursorX 0 := rfl

theorem putcBranch_newline :
    putcBranch 0x0A s = (s.setCursorX 0).setCursorY (s.cursorY + 1) := rfl

theorem putcBranch_printable (h : 0x20 ≤ c) :
    putcBranch c s
      = (s.storeCell (s.cursorY * 80 + s.cursorX) (glyph c s)).setCursorX (s.cursorX + 1) := by
  rw [putcBranch, if_neg fun hb => ne_control_of_printable h (by decide) hb.1,
    if_neg (ne_control_of_printable h (by decide)), if_neg (ne_control_of_printable h (by decide)),
    if_neg (ne_control_of_printable h (by decide)), if_pos h]

theorem putcBranch_inert (h : Inert c) : putcBranch c s = s := by
  obtain ⟨hbackspace, htab, hreturn, hnewline, hprint⟩ := h
  rw [putcBranch, if_neg fun hb => hbackspace hb.1, if_neg htab, if_neg hreturn, if_neg hnewline,
    if_neg hprint]

end Branches

/-! ### The hardware cursor -/

@[simp] theorem moveCursor_videoMemory (s : Vga) : (moveCursor s).videoMemory = s.videoMemory := rfl
@[simp] theorem moveCursor_cursorX (s : Vga) : (moveCursor s).cursorX = s.cursorX := rfl
@[simp] theorem moveCursor_cursorY (s : Vga) : (moveCursor s).cursorY = s.cursorY := rfl
@[simp] theorem moveCursor_backColour (s : Vga) : (moveCursor s).backColour = s.backColour := rfl
@[simp] theorem moveCursor_foreColour (s : Vga) : (moveCursor s).foreColour = s.foreColour := rfl

@[simp] theorem moveCursor_accesses (s : Vga) :
    (moveCursor s).accesses
      = .cursorLocation (s.cursorY * 80 + s.cursorX) :: s.accesses := rfl

/-- Splitting a 16-bit location over the two byte registers loses nothing. -/
theorem bytes_of_location (location : BitVec 16) :
    ((location >>> 8).setWidth 8).toNat * 256 + (location.setWidth 8).toNat = location.toNat := by
  have := location.isLt
  simp only [BitVec.toNat_setWidth, BitVec.toNat_ushiftRight, Nat.shiftRight_eq_div_pow]
  omega

theorem moveCursor_location {s : Vga} (h : s.cursorY * 80 + s.cursorX < 65536) :
    (moveCursor s).crtc.location = s.cursorY * 80 + s.cursorX := by
  have hregs : (moveCursor s).crtc.location
      = ((s.cursorLocation >>> 8).setWidth 8 : Byte).toNat * 256
        + (s.cursorLocation.setWidth 8 : Byte).toNat := rfl
  rw [hregs, bytes_of_location, cursorLocation, BitVec.toNat_ofNat, Nat.mod_eq_of_lt h]

end Brunix
