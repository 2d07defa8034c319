import Brunix.Console.Vga

/-!
# What a character does to the screen

The part of the console two callers share and a reader sees: the cells and the cursor. A character
matters by its kind alone, and by the cell it stores if it has a glyph. Off the hardware cursor and
the log, `vga_putc` is a function on this record without the reduction modulo 256, which no cursor
that is near the screen reaches.
-/

namespace Brunix

open Vga Basis

/-- The branches of `vga_putc`. -/
inductive Kind
  | backspace
  | tab
  | carriageReturn
  | newline
  | printable
  | inert
  deriving DecidableEq, Repr

def kind (c : Byte) : Kind :=
  if c = 0x08 then .backspace
  else if c = 0x09 then .tab
  else if c = 0x0D then .carriageReturn
  else if c = 0x0A then .newline
  else if 0x20 ≤ c then .printable
  else .inert

/-- The column the branch of a kind leads to. -/
def Kind.advance : Kind → Nat → Nat
  | .backspace, x => x - 1
  | .tab, x => x / 8 * 8 + 8
  | .carriageReturn, _ => 0
  | .newline, _ => 0
  | .printable, x => x + 1
  | .inert, x => x

theorem Kind.advance_le (k : Kind) {x : Nat} (h : x < 80) : k.advance x ≤ 80 := by
  cases k <;> simp only [Kind.advance] <;> omega

def Kind.column (k : Kind) (x : Nat) : Nat := if 80 ≤ k.advance x then 0 else k.advance x

/-- The kind runs past the end of its row. -/
def Kind.Wraps (k : Kind) (x : Nat) : Prop := 80 ≤ k.advance x

instance (k : Kind) (x : Nat) : Decidable (k.Wraps x) := inferInstanceAs (Decidable (80 ≤ _))

/-- The kind takes the cursor to the start of the next row. -/
def Kind.Leaves (k : Kind) (x : Nat) : Prop := k = .newline ∨ k.Wraps x

instance (k : Kind) (x : Nat) : Decidable (k.Leaves x) := inferInstanceAs (Decidable (_ ∨ _))

def Kind.row (k : Kind) (x y : Nat) : Nat := if k.Leaves x then min (y + 1) 24 else y

theorem Kind.Wraps.cases {k : Kind} {x : Nat} (h : k.Wraps x) (hx : x < 80) :
    k = .printable ∧ x = 79 ∨ k = .tab ∧ 72 ≤ x := by
  cases k <;> simp only [Kind.Wraps, Kind.advance] at h <;> simp <;> omega

theorem Kind.Wraps.advance_eq {k : Kind} {x : Nat} (h : k.Wraps x) (hx : x < 80) :
    k.advance x = 80 := by
  rcases h.cases hx with ⟨rfl, rfl⟩ | ⟨rfl, hhigh⟩
  · rfl
  · rw [Kind.advance]
    omega

theorem Kind.Wraps.ne_newline {k : Kind} {x : Nat} (h : k.Wraps x) : k ≠ .newline := by
  intro hk
  subst hk
  exact absurd h (by decide : ¬ 80 ≤ 0)

theorem Kind.Leaves.column_eq {k : Kind} {x : Nat} (h : k.Leaves x) : k.column x = 0 := by
  rcases h with rfl | hwraps
  · rfl
  · exact if_pos hwraps

/-- No kind moves the cursor by more than a row. -/
theorem Kind.moves_near (k : Kind) {x y : Nat} (hx : x < 80) (hy : y < 25) :
    k.row x y * 80 + k.column x ≤ y * 80 + x + 80 ∧ y * 80 + x ≤ k.row x y * 80 + k.column x + 80 := by
  by_cases hc : k.Leaves x
  · rw [hc.column_eq, Kind.row, if_pos hc]
    omega
  · have hcolumn : ¬ 80 ≤ k.advance x := fun hwraps => hc (.inr hwraps)
    rw [Kind.row, if_neg hc, Kind.column, if_neg hcolumn]
    omega

theorem kind_printable {c : Byte} (h : 0x20 ≤ c) : kind c = .printable := by
  rw [kind, if_neg (ne_control_of_printable h (by decide)),
    if_neg (ne_control_of_printable h (by decide)), if_neg (ne_control_of_printable h (by decide)),
    if_neg (ne_control_of_printable h (by decide)), if_pos h]

theorem kind_inert {c : Byte} (h : Inert c) : kind c = .inert := by
  obtain ⟨hbackspace, htab, hreturn, hnewline, hprint⟩ := h
  rw [kind, if_neg hbackspace, if_neg htab, if_neg hreturn, if_neg hnewline, if_neg hprint]

@[ext] structure Screen where
  cells : Nat → Cell
  x : Nat
  y : Nat

@[simps] def Vga.screen (s : Vga) : Screen := ⟨s.videoMemory, s.cursorX, s.cursorY⟩

namespace Screen

/-- The cursor is on the screen. -/
def Valid (S : Screen) : Prop := S.x < 80 ∧ S.y < 25

def wrap (S : Screen) : Screen := if 80 ≤ S.x then ⟨S.cells, 0, S.y + 1⟩ else S

def scroll (S : Screen) : Screen := if 25 ≤ S.y then ⟨scrolled S.cells, S.x, 24⟩ else S

def branch (g : Cell) : Kind → Screen → Screen
  | .backspace, S => { S with x := S.x - 1 }
  | .tab, S => { S with x := S.x / 8 * 8 + 8 }
  | .carriageReturn, S => { S with x := 0 }
  | .newline, S => { S with x := 0, y := S.y + 1 }
  | .printable, S => { S with cells := Function.update S.cells (S.y * 80 + S.x) g, x := S.x + 1 }
  | .inert, S => S

def put (g : Cell) (k : Kind) (S : Screen) : Screen := (S.branch g k).wrap.scroll

/-! Each operation at a known position. -/

section Positions

variable (g : Cell) (v : Nat → Cell) {x y : Nat}

@[simp] theorem wrap_lt (h : x < 80) : wrap ⟨v, x, y⟩ = ⟨v, x, y⟩ := if_neg (Nat.not_le.mpr h)

@[simp] theorem wrap_ge (h : 80 ≤ x) : wrap ⟨v, x, y⟩ = ⟨v, 0, y + 1⟩ := if_pos h

@[simp] theorem scroll_lt (h : y < 25) : scroll ⟨v, x, y⟩ = ⟨v, x, y⟩ := if_neg (Nat.not_le.mpr h)

@[simp] theorem scroll_ge (h : 25 ≤ y) : scroll ⟨v, x, y⟩ = ⟨scrolled v, x, 24⟩ := if_pos h

@[simp] theorem branch_backspace : branch g .backspace ⟨v, x, y⟩ = ⟨v, x - 1, y⟩ := rfl

@[simp] theorem branch_tab : branch g .tab ⟨v, x, y⟩ = ⟨v, x / 8 * 8 + 8, y⟩ := rfl

@[simp] theorem branch_carriageReturn : branch g .carriageReturn ⟨v, x, y⟩ = ⟨v, 0, y⟩ := rfl

@[simp] theorem branch_newline : branch g .newline ⟨v, x, y⟩ = ⟨v, 0, y + 1⟩ := rfl

@[simp] theorem branch_printable :
    branch g .printable ⟨v, x, y⟩ = ⟨Function.update v (y * 80 + x) g, x + 1, y⟩ := rfl

@[simp] theorem branch_inert : branch g .inert ⟨v, x, y⟩ = ⟨v, x, y⟩ := rfl

@[simp] theorem put_mk (k : Kind) :
    put g k ⟨v, x, y⟩ = (branch g k ⟨v, x, y⟩).wrap.scroll := rfl

end Positions

end Screen

open Screen

@[simp] theorem screen_moveCursor (s : Vga) : (moveCursor s).screen = s.screen := rfl

theorem screen_wrapLine {s : Vga} (h : s.cursorY < 255) : (wrapLine s).screen = s.screen.wrap := by
  rw [wrapLine, Screen.wrap, screen_x]
  split
  · have hrow : ((s.cursorY + 1 : Int) % 256).toNat = s.cursorY + 1 := by omega
    simp only [screen, setCursorY, setCursorX, hrow]
    rfl
  · rfl

theorem screen_scroll (s : Vga) : (Brunix.scroll s).screen = s.screen.scroll := by
  rw [Screen.scroll, screen_y]
  split
  · obtain ⟨log, hscroll, _⟩ := scroll_spec ‹_›
    rw [hscroll]
    rfl
  · rw [scroll_of_lt (by omega)]

theorem screen_putcBranch {s : Vga} (hx : s.cursorX < 240) (hy : s.cursorY < 255) (c : Byte) :
    (putcBranch c s).screen = s.screen.branch (glyph c s) (kind c) := by
  rcases char_cases c with rfl | rfl | rfl | rfl | hprint | hinert
  · by_cases hzero : s.cursorX = 0
    · rw [putcBranch_backspace_zero s hzero]
      exact Screen.ext rfl (show s.cursorX = s.cursorX - 1 by omega) rfl
    · rw [putcBranch_backspace s hzero]
      exact Screen.ext rfl (show ((s.cursorX - 1 : Int) % 256).toNat = s.cursorX - 1 by omega) rfl
  · rw [putcBranch_tab, tabStop_eq (by omega)]
    refine Screen.ext rfl ?_ rfl
    show (((s.cursorX / 8 * 8 + 8 : Nat) : Int) % 256).toNat = s.cursorX / 8 * 8 + 8
    omega
  · rw [putcBranch_return]
    rfl
  · rw [putcBranch_newline]
    exact Screen.ext rfl rfl (show ((s.cursorY + 1 : Int) % 256).toNat = s.cursorY + 1 by omega)
  · rw [putcBranch_printable s hprint, kind_printable hprint]
    exact Screen.ext rfl (show ((s.cursorX + 1 : Int) % 256).toNat = s.cursorX + 1 by omega) rfl
  · rw [putcBranch_inert s hinert, kind_inert hinert]
    rfl

namespace Screen

theorem branch_x (g : Cell) (k : Kind) (S : Screen) : (S.branch g k).x = k.advance S.x := by
  cases k <;> rfl

theorem branch_y_le (g : Cell) (k : Kind) (S : Screen) : (S.branch g k).y ≤ S.y + 1 := by
  cases k <;> simp only [branch] <;> omega

theorem wrap_x (S : Screen) : S.wrap.x = if 80 ≤ S.x then 0 else S.x := by
  rw [wrap]
  split <;> rfl

theorem wrap_x_lt (S : Screen) : S.wrap.x < 80 := by
  rw [wrap_x]
  split <;> omega

theorem scroll_x (S : Screen) : S.scroll.x = S.x := by
  rw [scroll]
  split <;> rfl

theorem scroll_y_lt (S : Screen) : S.scroll.y < 25 := by
  rw [scroll]
  split
  · exact Nat.lt_succ_self 24
  · omega

theorem branch_y (g : Cell) {c : Kind} (S : Screen) (hc : c ≠ .newline) : (S.branch g c).y = S.y := by
  cases c with
  | newline => exact absurd rfl hc
  | _ => rfl

theorem wrap_leaves {c : Kind} {S : Screen} (h : c.Leaves S.x) (g : Cell) :
    (S.branch g c).wrap = ⟨(S.branch g c).cells, 0, S.y + 1⟩ := by
  rcases h with rfl | hwraps
  · rfl
  · have hcolumn : 80 ≤ c.advance S.x := hwraps
    rw [wrap, branch_x, if_pos hcolumn, branch_y g S hwraps.ne_newline]

theorem wrap_stays {c : Kind} {S : Screen} (h : ¬ c.Leaves S.x) (g : Cell) :
    (S.branch g c).wrap = S.branch g c ∧ (S.branch g c).x < 80 ∧ (S.branch g c).y = S.y := by
  have hcolumn : ¬ 80 ≤ c.advance S.x := fun hwraps => h (.inr hwraps)
  rw [wrap, branch_x, if_neg hcolumn, branch_y g S fun hfeed => h (.inl hfeed)]
  exact ⟨rfl, Nat.not_le.mp hcolumn, rfl⟩

theorem wrap_y_le (g : Cell) (c : Kind) (S : Screen) : (S.branch g c).wrap.y ≤ S.y + 1 := by
  by_cases hc : c.Leaves S.x
  · rw [wrap_leaves hc]
  · obtain ⟨hwrap, -, hy⟩ := wrap_stays hc g
    rw [hwrap, hy]
    omega

theorem put_leaves {c : Kind} {S : Screen} (h : c.Leaves S.x) (g : Cell) :
    S.put g c = scroll ⟨(S.branch g c).cells, 0, S.y + 1⟩ := by
  rw [put, wrap_leaves h]

/-- The screen before the scroll, unless there is one. -/
theorem wrap_valid {c : Kind} {S : Screen} (hS : S.Valid) (h : ¬ (c.Leaves S.x ∧ S.y = 24)) (g : Cell) :
    (S.branch g c).wrap.Valid := by
  refine ⟨wrap_x_lt _, ?_⟩
  have hrow : S.y < 25 := hS.2
  by_cases hc : c.Leaves S.x
  · have hlast : S.y ≠ 24 := fun hlast => h ⟨hc, hlast⟩
    rw [wrap_leaves hc]
    exact (by omega : S.y + 1 < 25)
  · obtain ⟨hwrap, -, hy⟩ := wrap_stays hc g
    rwa [hwrap, hy]

theorem branch_wraps {c : Kind} {S : Screen} (hS : S.x < 80) (h : c.Wraps S.x) (g : Cell) :
    S.branch g c = ⟨(S.branch g c).cells, 80, S.y⟩ := by
  have hx : (S.branch g c).x = 80 := (branch_x g c S).trans (h.advance_eq hS)
  exact Screen.ext rfl hx (branch_y g S h.ne_newline)

/-- The screen before the line wrap, unless there is one or a scroll. -/
theorem branch_valid {c : Kind} {S : Screen} (hS : S.Valid) (hwraps : ¬ c.Wraps S.x)
    (hfeed : ¬ (c = .newline ∧ S.y = 24)) (g : Cell) : (S.branch g c).Valid := by
  have hrow : S.y < 25 := hS.2
  refine ⟨(branch_x g c S).symm ▸ Nat.not_le.mp hwraps, ?_⟩
  by_cases hc : c = .newline
  · subst hc
    have hlast : S.y ≠ 24 := fun hlast => hfeed ⟨rfl, hlast⟩
    exact (by omega : S.y + 1 < 25)
  · rwa [branch_y g S hc]

theorem scroll_valid {S : Screen} (h : S.Valid) : S.scroll = S := if_neg (Nat.not_le.mpr h.2)

theorem put_x (g : Cell) (k : Kind) (S : Screen) : (S.put g k).x = k.column S.x := by
  rw [put, scroll_x, wrap_x, branch_x, Kind.column]

theorem put_y (g : Cell) (k : Kind) {S : Screen} (h : S.y < 25) : (S.put g k).y = k.row S.x S.y := by
  rw [Kind.row]
  split
  · rw [put_leaves ‹_›]
    obtain hlast | hlow : 25 ≤ S.y + 1 ∨ S.y + 1 < 25 := by omega
    · rw [scroll_ge _ hlast, Nat.min_eq_right (by omega)]
    · rw [scroll_lt _ hlow, Nat.min_eq_left (by omega)]
  · obtain ⟨hwrap, hx, hy⟩ := wrap_stays ‹_› g
    rw [put, hwrap, scroll_valid ⟨hx, hy.symm ▸ h⟩, hy]

theorem settled {S : Screen} (h : S.Valid) : S.wrap.scroll = S := by
  obtain ⟨v, x, y⟩ := S
  rw [wrap_lt v h.1, scroll_lt v h.2]

/-- A character whose branch does nothing does nothing. -/
theorem put_idle (g : Cell) {k : Kind} {S : Screen} (hS : S.Valid) (hidle : S.branch g k = S) :
    S.put g k = S := by
  rw [put, hidle, settled hS]

/-- The branches that do nothing at the start of a row. -/
theorem branch_home (g : Cell) {k : Kind} {S : Screen} (hk : k = .backspace ∨ k = .carriageReturn)
    (hx : S.x = 0) : S.branch g k = S := by
  rcases hk with rfl | rfl
  · exact Screen.ext rfl (show S.x - 1 = S.x by omega) rfl
  · exact Screen.ext rfl hx.symm rfl

/-- Whatever the cursor was, a character leaves it on the screen. -/
theorem put_valid (g : Cell) (k : Kind) (S : Screen) : (S.put g k).Valid :=
  ⟨(scroll_x _).symm ▸ wrap_x_lt _, scroll_y_lt _⟩

end Screen

/-- `vga_putc` on the screen. -/
theorem screen_vgaPutc {s : Vga} (hx : s.cursorX ≤ 80) (hy : s.cursorY ≤ 25) (c : Byte) :
    (vgaPutc s c).screen = s.screen.put (glyph c s) (kind c) := by
  have hbranch := screen_putcBranch (s := s) (by omega) (by omega) c
  have hrow : (putcBranch c s).cursorY ≤ s.cursorY + 1 := by
    rw [← screen_y, hbranch]
    exact branch_y_le _ _ _
  rw [vgaPutc, screen_moveCursor, screen_scroll, screen_wrapLine (by omega), hbranch, put]

end Brunix
