import Brunix.Console.Screen

/-!
# One character in the middle of another

A character is put while another is half way. What is left to do then acts on the screen the first
character has moved on, and the result is compared with the two orders the characters could have been
put in. A race that is lost is shown on a screen whose cells all differ.
-/

namespace Brunix

namespace Screen

/-! ### The statements of `vga_putc`, on the screen -/

def store (cell : Nat) (g : Cell) (S : Screen) : Screen :=
  { S with cells := Function.update S.cells cell g }

def incX (S : Screen) : Screen := { S with x := S.x + 1 }

/-- `cursor_x--`, in eight bits. -/
def decX (S : Screen) : Screen := { S with x := (S.x + 255) % 256 }

def incY (S : Screen) : Screen := { S with y := S.y + 1 }

def returnX (S : Screen) : Screen := { S with x := 0 }

/-- The rest of a scroll whose copying loop stands at a cell. -/
def copyFrom (cell : Nat) (S : Screen) : Screen :=
  ⟨filled 1920 2000 blank (shifted cell 1920 S.cells), S.x, 24⟩

/-- The rest of a scroll whose filling loop stands at a cell. -/
def fillFrom (cell : Nat) (S : Screen) : Screen := ⟨filled cell 2000 blank S.cells, S.x, 24⟩

section Positions

variable (g : Cell) (v : Nat → Cell) (x y cell : Nat)

@[simp] theorem store_mk : store cell g ⟨v, x, y⟩ = ⟨Function.update v cell g, x, y⟩ := rfl
@[simp] theorem incX_mk : incX ⟨v, x, y⟩ = ⟨v, x + 1, y⟩ := rfl
@[simp] theorem decX_mk : decX ⟨v, x, y⟩ = ⟨v, (x + 255) % 256, y⟩ := rfl
@[simp] theorem incY_mk : incY ⟨v, x, y⟩ = ⟨v, x, y + 1⟩ := rfl
@[simp] theorem returnX_mk : returnX ⟨v, x, y⟩ = ⟨v, 0, y⟩ := rfl
@[simp] theorem copyFrom_mk :
    copyFrom cell ⟨v, x, y⟩ = ⟨filled 1920 2000 blank (shifted cell 1920 v), x, 24⟩ := rfl
@[simp] theorem fillFrom_mk : fillFrom cell ⟨v, x, y⟩ = ⟨filled cell 2000 blank v, x, 24⟩ := rfl

end Positions

theorem screen_decX (s : Vga) :
    (s.setCursorX (s.cursorX - 1)).screen = s.screen.decX :=
  Screen.ext rfl (show ((s.cursorX - 1 : Int) % 256).toNat = (s.cursorX + 255) % 256 by omega) rfl

theorem screen_incX {s : Vga} (h : s.cursorX < 255) :
    (s.setCursorX (s.cursorX + 1)).screen = s.screen.incX :=
  Screen.ext rfl (show ((s.cursorX + 1 : Int) % 256).toNat = s.cursorX + 1 by omega) rfl

theorem screen_incY {s : Vga} (h : s.cursorY < 255) :
    (s.setCursorY (s.cursorY + 1)).screen = s.screen.incY :=
  Screen.ext rfl rfl (show ((s.cursorY + 1 : Int) % 256).toNat = s.cursorY + 1 by omega)

theorem screen_returnX (s : Vga) : (s.setCursorX 0).screen = s.screen.returnX := rfl

theorem screen_store (s : Vga) (cell : Nat) (g : Cell) :
    (s.storeCell cell g).screen = s.screen.store cell g := rfl

/-! ### The two orders -/

structure Same (R A : Screen) : Prop where
  cells : ∀ cell < 2000, R.cells cell = A.cells cell
  x : R.x = A.x
  y : R.y = A.y

theorem Same.of_eq {R A : Screen} (h : R = A) : Same R A := by
  subst h
  exact ⟨fun _ _ => rfl, rfl, rfl⟩

theorem Same.symm {R A : Screen} (h : Same R A) : Same A R :=
  ⟨fun cell hcell => (h.cells cell hcell).symm, h.x.symm, h.y.symm⟩

theorem not_same_cell {R A : Screen} (cell : Nat) (hcell : cell < 2000)
    (h : R.cells cell ≠ A.cells cell) : ¬ Same R A := fun hsame => h (hsame.cells cell hcell)

theorem not_same_x {R A : Screen} (h : R.x ≠ A.x) : ¬ Same R A := fun hsame => h hsame.x

theorem not_same_y {R A : Screen} (h : R.y ≠ A.y) : ¬ Same R A := fun hsame => h hsame.y

/-- The result of putting `c` and `k` one after the other. -/
def Serial (gc gk : Cell) (c k : Kind) (S R : Screen) : Prop :=
  Same R ((S.put gc c).put gk k) ∨ Same R ((S.put gk k).put gc c)

theorem not_serial_cell {gc gk : Cell} {c k : Kind} {S R : Screen} (cell : Nat) (hcell : cell < 2000)
    (hfirst : R.cells cell ≠ ((S.put gc c).put gk k).cells cell)
    (hsecond : R.cells cell ≠ ((S.put gk k).put gc c).cells cell) : ¬ Serial gc gk c k S R := by
  intro hserial
  rcases hserial with hsame | hsame
  · exact not_same_cell cell hcell hfirst hsame
  · exact not_same_cell cell hcell hsecond hsame

theorem not_serial_column {gc gk : Cell} {c k : Kind} {S R : Screen} (cell : Nat)
    (hcell : cell < 2000) (hfirst : R.x ≠ k.column (c.column S.x))
    (hsecond : R.cells cell ≠ ((S.put gk k).put gc c).cells cell) : ¬ Serial gc gk c k S R := by
  intro hserial
  rcases hserial with hsame | hsame
  · rw [← put_x gc, ← put_x gk] at hfirst
    exact not_same_x hfirst hsame
  · exact not_same_cell cell hcell hsecond hsame

/-! ### A screen that shows every difference -/

def paint (cell : Nat) : Cell := BitVec.ofNat 16 (4096 + cell)

theorem paint_toNat {cell : Nat} (h : cell < 4096) : (paint cell).toNat = 4096 + cell := by
  rw [paint, BitVec.toNat_ofNat]
  omega

@[simp] theorem paint_inj {i j : Nat} (hi : i < 4096) (hj : j < 4096) :
    paint i = paint j ↔ i = j := by
  rw [← BitVec.toNat_inj, paint_toNat hi, paint_toNat hj]
  omega

section Glyphs

variable {g : Cell} {i : Nat}

@[simp] theorem paint_ne_glyph (hg : g.toNat < 256) (hi : i < 4096) : paint i ≠ g := by
  rw [ne_eq, ← BitVec.toNat_inj, paint_toNat hi]
  omega

@[simp] theorem paint_ne_blank (hi : i < 4096) : paint i ≠ blank := by
  rw [ne_eq, ← BitVec.toNat_inj, paint_toNat hi]
  change ¬ 4096 + i = 3872
  omega

@[simp] theorem glyph_ne_blank (hg : g.toNat < 256) : g ≠ blank := by
  rw [ne_eq, ← BitVec.toNat_inj]
  change ¬ g.toNat = 3872
  omega

@[simp] theorem glyph_ne_paint (hg : g.toNat < 256) (hi : i < 4096) : g ≠ paint i :=
  (paint_ne_glyph hg hi).symm

@[simp] theorem blank_ne_paint (hi : i < 4096) : blank ≠ paint i := (paint_ne_blank hi).symm

@[simp] theorem blank_ne_glyph (hg : g.toNat < 256) : blank ≠ g := (glyph_ne_blank hg).symm

end Glyphs

section Races

variable {gc gk : Cell} {v : Nat → Cell} {c k : Kind} {x y : Nat}

/-! ### After the test for a backspace

The column may be 0 by now. Stepping back from it is a line feed. -/

theorem decX_serial (h : k.column x ≠ 0) :
    Serial gc gk .backspace k ⟨v, x, y⟩ (put gk k ⟨v, x, y⟩).decX.wrap.scroll := by
  have hvalid := put_valid gk k ⟨v, x, y⟩
  have hcolumn := put_x gk k ⟨v, x, y⟩
  refine .inr (.of_eq ?_)
  generalize put gk k ⟨v, x, y⟩ = T at hvalid hcolumn ⊢
  obtain ⟨v', x', y'⟩ := T
  obtain rfl : x' = k.column x := hcolumn
  have hlow : k.column x < 80 := hvalid.1
  rw [decX_mk, put_mk, branch_backspace,
    show (k.column x + 255) % 256 = k.column x - 1 by omega]

theorem not_same_decX {T : Screen} (hT : T.Valid) (hx : T.x = 0) (hrows : T.cells 80 ≠ T.cells 0) :
    ¬ Same T.decX.wrap.scroll T := by
  obtain ⟨v, x, y⟩ := T
  obtain ⟨-, hrow⟩ := hT
  dsimp only at hx hrow hrows
  subst hx
  obtain rfl | hlast : y = 24 ∨ y < 24 := by omega
  · exact not_same_cell 0 (by omega) (by simpa [scrolled_apply] using hrows)
  · exact not_same_y (by simp (disch := omega))

theorem put_rows_differ (hgk : gk.toNat < 256) (k : Kind) (x y : Nat) :
    (put gk k ⟨paint, x, y⟩).cells 80 ≠ (put gk k ⟨paint, x, y⟩).cells 0 := by
  have hbranch : (branch gk k ⟨paint, x, y⟩).cells 80 ≠ (branch gk k ⟨paint, x, y⟩).cells 0
      ∧ (branch gk k ⟨paint, x, y⟩).cells 160 ≠ (branch gk k ⟨paint, x, y⟩).cells 80 := by
    cases k with
    | printable =>
        simp only [branch_printable, Function.update_apply]
        split_ifs <;> simp (disch := omega) <;> omega
    | _ => simp (disch := omega)
  have hwrap : (branch gk k ⟨paint, x, y⟩).wrap.cells = (branch gk k ⟨paint, x, y⟩).cells := by
    rw [wrap]
    split <;> rfl
  rw [put, scroll]
  split
  · simpa [scrolled_apply, hwrap] using hbranch.2
  · simpa [hwrap] using hbranch.1

theorem decX_not_serial (hgk : gk.toNat < 256) (hx : x < 80) (hpos : x ≠ 0) (hy : y < 25)
    (hhome : k.column x = 0) :
    ¬ Serial gc gk .backspace k ⟨paint, x, y⟩ (put gk k ⟨paint, x, y⟩).decX.wrap.scroll := by
  have hvalid := put_valid gk k ⟨paint, x, y⟩
  have hcolumn : (put gk k ⟨paint, x, y⟩).x = 0 := (put_x _ _ _).trans hhome
  have hlost := not_same_decX hvalid hcolumn (put_rows_differ hgk k x y)
  have hresult : (put gk k ⟨paint, x, y⟩).decX.wrap.scroll.x = 0 := by
    rw [scroll_x, wrap_x, decX, hcolumn]
    rfl
  have hsecond : put gc .backspace (put gk k ⟨paint, x, y⟩) = put gk k ⟨paint, x, y⟩ :=
    put_idle gc hvalid (branch_home gc (.inl rfl) hcolumn)
  -- The other order ends on the same screen, or not in column 0 at all.
  have hfirst : (put gk k (put gc .backspace ⟨paint, x, y⟩)).x ≠ 0
      ∨ put gk k (put gc .backspace ⟨paint, x, y⟩) = put gk k ⟨paint, x, y⟩ := by
    rw [put_x, put_x]
    dsimp only
    cases k with
    | backspace =>
        obtain rfl : x = 1 := by grind [Kind.column, Kind.advance]
        exact .inr (by simp (disch := omega))
    | tab =>
        obtain rfl | hhigh : x = 72 ∨ 72 < x := by grind [Kind.column, Kind.advance]
        · exact .inl (by decide)
        · exact .inr (by simp (disch := omega))
    | carriageReturn => exact .inr (by simp (disch := omega))
    | newline => exact .inr (by simp (disch := omega))
    | printable =>
        obtain rfl : x = 79 := by grind [Kind.column, Kind.advance]
        exact .inl (by decide)
    | inert => grind [Kind.column, Kind.advance]
  intro hserial
  rw [Serial, hsecond] at hserial
  rcases hserial with hsame | hsame
  · rcases hfirst with hmiss | heq
    · exact hmiss (hsame.x.symm.trans hresult)
    · rw [heq] at hsame
      exact hlost hsame
  · exact hlost hsame

/-! ### Around the store of a character -/

theorem store_serial (hx : x < 80) (hy : y < 25)
    (h : k = .inert ∨ k = .backspace ∧ x < 79 ∨ k = .carriageReturn ∧ x = 0
      ∨ k = .newline ∧ x = 0 ∧ y = 24) :
    Serial gc gk .printable k ⟨v, x, y⟩
      ((put gk k ⟨v, x, y⟩).store (y * 80 + x) gc).incX.wrap.scroll := by
  rcases h with rfl | ⟨rfl, hlt⟩ | ⟨rfl, rfl⟩ | ⟨rfl, rfl, rfl⟩
  · exact .inr (.of_eq (by simp (disch := omega)))
  · obtain rfl | hpos : x = 0 ∨ 0 < x := by omega
    · exact .inr (.of_eq (by simp (disch := omega)))
    · exact .inl (.of_eq (by simp (disch := omega)))
  · exact .inr (.of_eq (by simp (disch := omega)))
  · exact .inr (.of_eq (by simp (disch := omega)))

theorem incX_serial (hx : x < 80) (hy : y < 25)
    (h : k = .inert ∨ k = .backspace ∧ x < 79 ∨ k = .carriageReturn ∧ x = 0) :
    Serial gc gk .printable k ⟨v, x, y⟩
      (put gk k (store (y * 80 + x) gc ⟨v, x, y⟩)).incX.wrap.scroll := by
  rcases h with rfl | ⟨rfl, hlt⟩ | ⟨rfl, rfl⟩
  · exact .inr (.of_eq (by simp (disch := omega)))
  · obtain rfl | hpos : x = 0 ∨ 0 < x := by omega
    · exact .inr (.of_eq (by simp (disch := omega)))
    · exact .inl (.of_eq (by simp (disch := omega)))
  · exact .inr (.of_eq (by simp (disch := omega)))

/-- Before the store and after it the same is lost: the cell stored and the cursor that passes it are
two columns, or two rows, apart. -/
theorem store_not_serial {T : Screen} (hgc : gc.toNat < 256) (hgk : gk.toNat < 256) (hx : x < 80)
    (hy : y < 25)
    (hT : T = (put gk k ⟨paint, x, y⟩).store (y * 80 + x) gc
      ∨ T = put gk k (store (y * 80 + x) gc ⟨paint, x, y⟩))
    (h : ¬ (k = .inert ∨ k = .backspace ∧ x < 79 ∨ k = .carriageReturn ∧ x = 0
      ∨ k = .newline ∧ x = 0 ∧ y = 24)) :
    ¬ Serial gc gk .printable k ⟨paint, x, y⟩ T.incX.wrap.scroll := by
  simp only [not_or, not_and] at h
  obtain ⟨hinert, hback, hreturn, hnewline⟩ := h
  have hcolumn : T.incX.wrap.scroll.x = if 80 ≤ k.column x + 1 then 0 else k.column x + 1 := by
    rcases hT with rfl | rfl <;> simp only [scroll_x, wrap_x, incX, store, put_x]
  cases k with
  | inert => exact absurd rfl hinert
  | backspace =>
      obtain rfl : x = 79 := by
        have := hback rfl
        omega
      have hmiss : T.incX.wrap.scroll.x ≠ Kind.column .backspace (Kind.column .printable 79) := by
        rw [hcolumn]
        decide
      apply not_serial_column (y * 80 + 79) (by omega) hmiss
      rcases hT with rfl | rfl <;> simp (disch := omega)
  | tab =>
      have hmiss : T.incX.wrap.scroll.x ≠ Kind.column .tab (Kind.column .printable x) := by
        grind [Kind.column, Kind.advance]
      obtain hlow | ⟨hhigh, rfl⟩ | ⟨hhigh, hrow⟩ :
          x < 72 ∨ 72 ≤ x ∧ y = 24 ∨ 72 ≤ x ∧ y < 24 := by omega
      · apply not_serial_column (y * 80 + x) (by omega) hmiss
        rcases hT with rfl | rfl <;> simp (disch := omega)
      · apply not_serial_column 1920 (by omega) hmiss
        rcases hT with rfl | rfl <;> simp (disch := omega) [scrolled_apply]
      · apply not_serial_column ((y + 1) * 80) (by omega) hmiss
        rcases hT with rfl | rfl <;> simp (disch := omega)
  | carriageReturn =>
      have hpos : x ≠ 0 := hreturn rfl
      have hmiss : T.incX.wrap.scroll.x ≠ Kind.column .carriageReturn (Kind.column .printable x) := by
        grind [Kind.column, Kind.advance]
      apply not_serial_column (y * 80 + x) (by omega) hmiss
      rcases hT with rfl | rfl <;> simp (disch := omega)
  | newline =>
      have hmiss : T.incX.wrap.scroll.x ≠ Kind.column .newline (Kind.column .printable x) := by
        grind [Kind.column, Kind.advance]
      obtain rfl | hrow : y = 24 ∨ y < 24 := by omega
      · have hpos : x ≠ 0 := fun hzero => hnewline rfl hzero rfl
        apply not_serial_column 1920 (by omega) hmiss
        rcases hT with rfl | rfl <;> simp (disch := omega) [scrolled_apply]
      · apply not_serial_column ((y + 1) * 80) (by omega) hmiss
        rcases hT with rfl | rfl <;> simp (disch := omega)
  | printable =>
      -- A cell that one of the two characters has in either order, and nobody stored.
      obtain hlow | ⟨rfl, hrow⟩ | ⟨rfl, rfl⟩ | ⟨rfl, hrow⟩ | ⟨rfl, rfl⟩ :
          x < 78 ∨ x = 78 ∧ y < 24 ∨ x = 78 ∧ y = 24 ∨ x = 79 ∧ y < 24 ∨ x = 79 ∧ y = 24 := by
        omega
      · apply not_serial_cell (y * 80 + (x + 1)) (by omega) <;> rcases hT with rfl | rfl <;>
          simp (disch := omega)
      · apply not_serial_cell (y * 80 + 79) (by omega) <;> rcases hT with rfl | rfl <;>
          simp (disch := omega)
      · apply not_serial_cell 1919 (by omega) <;> rcases hT with rfl | rfl <;>
          simp (disch := omega) [scrolled_apply]
      · apply not_serial_cell ((y + 1) * 80) (by omega) <;> rcases hT with rfl | rfl <;>
          simp (disch := omega)
      · apply not_serial_cell 1920 (by omega) <;> rcases hT with rfl | rfl <;>
          simp (disch := omega) [scrolled_apply]

theorem incX_not_serial (hgc : gc.toNat < 256) (hgk : gk.toNat < 256) (hx : x < 80) (hy : y < 25)
    (h : ¬ (k = .inert ∨ k = .backspace ∧ x < 79 ∨ k = .carriageReturn ∧ x = 0)) :
    ¬ Serial gc gk .printable k ⟨paint, x, y⟩
      (put gk k (store (y * 80 + x) gc ⟨paint, x, y⟩)).incX.wrap.scroll := by
  by_cases hnewline : k = .newline ∧ x = 0 ∧ y = 24
  · -- The glyph is scrolled away with the row it was in.
    obtain ⟨rfl, rfl, rfl⟩ := hnewline
    intro hserial
    rcases hserial with hsame | hsame
    · exact not_same_x (by simp (disch := omega)) hsame
    · exact not_same_cell 1920 (by omega) (by simp (disch := omega) [scrolled_apply]) hsame
  · exact store_not_serial hgc hgk hx hy (.inr rfl) (by tauto)

end Races

end Screen

end Brunix
