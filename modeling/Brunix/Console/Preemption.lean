import Brunix.Console.Races
import Brunix.Console.Statements

/-!
# `vga_putc` under keyboard interrupts

`kmain` prints with interrupts enabled, and the keyboard handler prints as well. The handler runs
`vga_putc` between any two statements of the `vga_putc` it interrupted, as a whole, for an interrupt
gate keeps further interrupts out. What comes of it depends on the statement, on the two characters
and on the cursor.
-/

namespace Brunix

open Vga Basis Thread Screen

/-! ### What is promised -/

def Access.OnScreen : Access → Prop
  | .load cell => cell < 2000
  | .store cell => cell < 2000
  | _ => True

/-- No framebuffer access left the screen. -/
def Vga.OnScreen (s : Vga) : Prop := ∀ access ∈ s.accesses, access.OnScreen

/-- The framebuffer, the cursor variables and the hardware cursor are the same. -/
structure Agrees (s s' : Vga) : Prop where
  cells : ∀ cell < 2000, s.videoMemory cell = s'.videoMemory cell
  cursorX : s.cursorX = s'.cursorX
  cursorY : s.cursorY = s'.cursorY
  location : s.crtc.location = s'.crtc.location

/-- A console that two calls of `vga_putc` could have left behind one after the other. -/
def Serialised (c k : Byte) (s final : Vga) : Prop :=
  final.OnScreen ∧
    (Agrees final (vgaPutc (vgaPutc s c) k) ∨ Agrees final (vgaPutc (vgaPutc s k) c))

/-- `vga_putc(c)`, interrupted after `n` statements by a handler that calls `vga_putc(k)`. -/
def preemptedPutc (c k : Byte) (n : Nat) (s : Vga) : Vga :=
  interrupted n (fun t => vgaPutc t k) (vgaPutcThread c) s

/-- The interruptions that do no harm, by the statement that is about to run, the kinds of the
interrupted character `c` and of the handler's `k`, and the cursor before either. -/
def Safe (c k : Kind) (x y : Nat) : Option Point → Prop
  | some .decX => k.column x ≠ 0
  | some .newlineY | some .wrapY => k ≠ .printable
  | some .store => k = .inert ∨ k = .backspace ∧ x < 79 ∨ k = .carriageReturn ∧ x = 0
      ∨ k = .newline ∧ x = 0 ∧ y = 24
  | some .incX => k = .inert ∨ k = .backspace ∧ x < 79 ∨ k = .carriageReturn ∧ x = 0
  | some .testWrap => (c.Wraps x → k = .inert)
      ∧ (c = .newline ∧ y = 24 → k ≠ .printable ∧ k ≠ .newline)
  | some .wrapX => k = .backspace ∨ k = .carriageReturn ∨ k = .newline
  | some .scrollAttribute | some .scrollBlank | some .testScroll =>
      c.Leaves x ∧ y = 24 → k ≠ .printable ∧ k ≠ .newline
  | some (.copy i) => k = .newline ∧ i = 0
  | some (.fill _) => False
  | some .setRow => k = .newline
  | some .outHighCommand | some .outHigh | some .outLowCommand | some .outLow =>
      k.column (c.column x) = c.column x ∧ k.row (c.column x) (c.row x y) = c.row x y
  | _ => True

instance (c k : Kind) (x y : Nat) : DecidablePred (Safe c k x y)
  | some .decX => inferInstanceAs (Decidable (_ ≠ _))
  | some .newlineY | some .wrapY => inferInstanceAs (Decidable (_ ≠ _))
  | some .store | some .incX | some .wrapX => inferInstanceAs (Decidable (_ ∨ _))
  | some .testWrap | some (.copy _) => inferInstanceAs (Decidable (_ ∧ _))
  | some .scrollAttribute | some .scrollBlank | some .testScroll =>
      inferInstanceAs (Decidable (_ ∧ _ → _))
  | some (.fill _) => inferInstanceAs (Decidable False)
  | some .setRow => inferInstanceAs (Decidable (_ = _))
  | some .outHighCommand | some .outHigh | some .outLowCommand | some .outLow =>
      inferInstanceAs (Decidable (_ ∧ _))
  | none | some .attributeByte | some .attributeWord | some .testBackspace | some .testTab
  | some .tabX | some .testReturn | some .returnX | some .testNewline | some .newlineX
  | some .testPrintable | some .location | some .cursorLocation => inferInstanceAs (Decidable True)

/-! ### The accesses of each function -/

section Accesses

variable (s : Vga)

@[simp] theorem onScreen_setCursorX (value : Int) : (s.setCursorX value).OnScreen ↔ s.OnScreen := by
  simp [Vga.OnScreen, Access.OnScreen]

@[simp] theorem onScreen_setCursorY (value : Int) : (s.setCursorY value).OnScreen ↔ s.OnScreen := by
  simp [Vga.OnScreen, Access.OnScreen]

@[simp] theorem onScreen_outb (port : BitVec 16) (value : Byte) :
    (s.outb port value).OnScreen ↔ s.OnScreen := Iff.rfl

@[simp] theorem onScreen_setCursorLocation : s.setCursorLocation.OnScreen ↔ s.OnScreen := by
  simp [Vga.OnScreen, Access.OnScreen]

@[simp] theorem onScreen_storeCell (cell : Nat) (value : Cell) :
    (s.storeCell cell value).OnScreen ↔ cell < 2000 ∧ s.OnScreen := by
  simp [Vga.OnScreen, Access.OnScreen]

@[simp] theorem onScreen_moveCursor : (moveCursor s).OnScreen ↔ s.OnScreen := by
  simp [Vga.OnScreen, Access.OnScreen]

@[simp] theorem onScreen_wrapLine : (wrapLine s).OnScreen ↔ s.OnScreen := by
  rw [wrapLine]
  split <;> simp

theorem Access.Ok.onScreen {access : Access} (h : access.Ok) : access.OnScreen := by
  cases access with
  | load cell => exact h
  | store cell => exact h
  | _ => trivial

theorem onScreen_append {s' : Vga} {log : List Access} (h : s'.accesses = log ++ s.accesses)
    (hlog : ∀ access ∈ log, access.Ok) : s'.OnScreen ↔ s.OnScreen := by
  rw [Vga.OnScreen, h, List.forall_mem_append]
  exact and_iff_right fun access haccess => (hlog access haccess).onScreen

@[simp] theorem onScreen_scroll : (scroll s).OnScreen ↔ s.OnScreen := by
  by_cases hfull : 25 ≤ s.cursorY
  · obtain ⟨log, hscroll, hlog⟩ := scroll_spec hfull
    rw [hscroll]
    exact onScreen_append s rfl hlog
  · rw [scroll_of_lt (by omega)]

theorem onScreen_putcBranch (c : Byte) : (putcBranch c s).OnScreen
    ↔ (kind c = .printable → s.cursorY * 80 + s.cursorX < 2000) ∧ s.OnScreen := by
  rcases char_cases c with rfl | rfl | rfl | rfl | hprint | hinert
  · by_cases hzero : s.cursorX = 0
    · rw [putcBranch_backspace_zero s hzero]
      simp [kind]
    · rw [putcBranch_backspace s hzero]
      simp [kind]
  · rw [putcBranch_tab]
    simp [kind]
  · rw [putcBranch_return]
    simp [kind]
  · rw [putcBranch_newline]
    simp [kind]
  · rw [putcBranch_printable s hprint]
    simp [kind_printable hprint]
  · rw [putcBranch_inert s hinert]
    simp [kind_inert hinert]

/-- The only access that can leave the screen is the store of a glyph. -/
theorem onScreen_vgaPutc (c : Byte) : (vgaPutc s c).OnScreen
    ↔ (kind c = .printable → s.cursorY * 80 + s.cursorX < 2000) ∧ s.OnScreen := by
  rw [vgaPutc, onScreen_moveCursor, onScreen_scroll, onScreen_wrapLine, onScreen_putcBranch]

end Accesses

/-! ### The colours of a glyph -/

theorem glyph_congr {s t : Vga} (h : t.attributeByte = s.attributeByte) (c : Byte) :
    glyph c t = glyph c s := by
  rw [glyph, glyph, h]

theorem attributeByte_putcBranch (s : Vga) (c : Byte) :
    (putcBranch c s).attributeByte = s.attributeByte := by
  rcases char_cases c with rfl | rfl | rfl | rfl | hprint | hinert
  · by_cases hzero : s.cursorX = 0
    · rw [putcBranch_backspace_zero s hzero]
    · rw [putcBranch_backspace s hzero]
      rfl
  · rfl
  · rfl
  · rfl
  · rw [putcBranch_printable s hprint]
    rfl
  · rw [putcBranch_inert s hinert]

theorem attributeByte_wrapLine (s : Vga) : (wrapLine s).attributeByte = s.attributeByte := by
  rw [wrapLine]
  split <;> rfl

theorem attributeByte_scroll (s : Vga) : (scroll s).attributeByte = s.attributeByte := by
  by_cases hfull : 25 ≤ s.cursorY
  · obtain ⟨log, hscroll, -⟩ := scroll_spec hfull
    rw [hscroll]
    rfl
  · rw [scroll_of_lt (by omega)]

theorem attributeByte_moveCursor (s : Vga) : (moveCursor s).attributeByte = s.attributeByte := rfl

theorem attributeByte_vgaPutc (s : Vga) (c : Byte) :
    (vgaPutc s c).attributeByte = s.attributeByte := by
  rw [vgaPutc, attributeByte_moveCursor, attributeByte_scroll, attributeByte_wrapLine,
    attributeByte_putcBranch]

/-! ### Comparing screens is enough -/

theorem vgaPutc_valid {s : Vga} (hx : s.cursorX ≤ 80) (hy : s.cursorY ≤ 25) (c : Byte) :
    (vgaPutc s c).screen.Valid :=
  screen_vgaPutc hx hy c ▸ put_valid _ _ _

theorem moveCursor_location_of_valid {s : Vga} (h : s.screen.Valid) :
    (moveCursor s).crtc.location = (moveCursor s).cursorY * 80 + (moveCursor s).cursorX := by
  have hx : s.cursorX < 80 := h.1
  have hy : s.cursorY < 25 := h.2
  exact moveCursor_location (by omega)

theorem vgaPutc_location {s : Vga} {c : Byte} (h : (vgaPutc s c).screen.Valid) :
    (vgaPutc s c).crtc.location = (vgaPutc s c).cursorY * 80 + (vgaPutc s c).cursorX := by
  rw [vgaPutc, screen_moveCursor] at h
  rw [vgaPutc, moveCursor_location_of_valid h]

theorem agrees_iff_same {a b : Vga} (ha : a.crtc.location = a.cursorY * 80 + a.cursorX)
    (hb : b.crtc.location = b.cursorY * 80 + b.cursorX) :
    Agrees a b ↔ Same a.screen b.screen := by
  constructor
  · exact fun h => ⟨h.cells, h.cursorX, h.cursorY⟩
  · intro h
    have hx : a.cursorX = b.cursorX := h.x
    have hy : a.cursorY = b.cursorY := h.y
    exact ⟨h.cells, hx, hy, by rw [ha, hb, hx, hy]⟩

section Interruption

variable {c k : Byte} {s t w : Vga}

theorem screen_vgaPutc_vgaPutc (hs : s.screen.Valid) (c k : Byte) :
    (vgaPutc (vgaPutc s c) k).screen
      = (s.screen.put (glyph c s) (kind c)).put (glyph k s) (kind k) := by
  have hvalid := vgaPutc_valid (Nat.le_of_lt hs.1) (Nat.le_of_lt hs.2) c
  rw [screen_vgaPutc (Nat.le_of_lt hvalid.1) (Nat.le_of_lt hvalid.2),
    glyph_congr (attributeByte_vgaPutc s c),
    screen_vgaPutc (Nat.le_of_lt hs.1) (Nat.le_of_lt hs.2)]

theorem vgaPutc_vgaPutc_location (hs : s.screen.Valid) (c k : Byte) :
    (vgaPutc (vgaPutc s c) k).crtc.location
      = (vgaPutc (vgaPutc s c) k).cursorY * 80 + (vgaPutc (vgaPutc s c) k).cursorX := by
  apply vgaPutc_location
  rw [screen_vgaPutc_vgaPutc hs]
  exact put_valid _ _ _

theorem serialised_moveCursor (hs : s.screen.Valid) (hw : w.screen.Valid) :
    Serialised c k s (moveCursor w) ↔ w.OnScreen
      ∧ Serial (glyph c s) (glyph k s) (kind c) (kind k) s.screen w.screen := by
  have hserial (first second : Byte) :
      Agrees (moveCursor w) (vgaPutc (vgaPutc s first) second)
        ↔ Same w.screen ((s.screen.put (glyph first s) (kind first)).put (glyph second s)
            (kind second)) := by
    rw [agrees_iff_same (moveCursor_location_of_valid hw) (vgaPutc_vgaPutc_location hs first second),
      screen_vgaPutc_vgaPutc hs, screen_moveCursor]
  rw [Serialised, onScreen_moveCursor, hserial, hserial, Serial]

/-- A painted screen, and glyphs that are in none of its cells. -/
structure Painted (c k : Byte) (s : Vga) : Prop where
  cells : s.videoMemory = paint
  glyph_lt : (glyph c s).toNat < 256
  glyph_lt' : (glyph k s).toNat < 256

/-- An interruption that finds the code `rest` about to run in the state `t`. It does no harm where
that is safe, and on a painted screen nowhere else. -/
def Verdict (c k : Byte) (s : Vga) (rest : Thread Point Vga) (t : Vga) : Prop :=
  (Safe (kind c) (kind k) s.cursorX s.cursorY rest.point
    → Serialised c k s (rest.run (vgaPutc t k)))
  ∧ (Painted c k s → Serialised c k s (rest.run (vgaPutc t k))
    → Safe (kind c) (kind k) s.cursorX s.cursorY rest.point)

/-- An interruption before the cursor location is taken: `R` is the screen it leads to, whatever the
cells were. -/
theorem verdict_of_moveCursor {rest : Thread Point Vga} {R : (Nat → Cell) → Screen}
    (hs : s.screen.Valid) (hrun : rest.run (vgaPutc t k) = moveCursor w)
    (hscreen : w.screen = R s.videoMemory) (hvalid : (R s.videoMemory).Valid)
    (hsafe : Safe (kind c) (kind k) s.cursorX s.cursorY rest.point → w.OnScreen
      ∧ Serial (glyph c s) (glyph k s) (kind c) (kind k) ⟨s.videoMemory, s.cursorX, s.cursorY⟩
          (R s.videoMemory))
    (hrisk : (glyph c s).toNat < 256 → (glyph k s).toNat < 256 → w.OnScreen
      → Serial (glyph c s) (glyph k s) (kind c) (kind k) ⟨paint, s.cursorX, s.cursorY⟩ (R paint)
      → Safe (kind c) (kind k) s.cursorX s.cursorY rest.point) :
    Verdict c k s rest t := by
  rw [Verdict, hrun, serialised_moveCursor hs (hscreen.symm ▸ hvalid), hscreen]
  refine ⟨hsafe, fun hpaint h => ?_⟩
  rw [screen, hpaint.cells] at h
  exact hrisk hpaint.glyph_lt hpaint.glyph_lt' h.1 h.2
end Interruption

end Brunix
