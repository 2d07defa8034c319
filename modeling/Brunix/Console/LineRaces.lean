import Brunix.Console.Races

/-!
# Races of a character that leaves its row

A newline, and a character that runs past the end of its row, take the cursor to the start of the next
row in three statements, and a scroll may follow. On the way the cursor is in column 80 or in row 25.
-/

namespace Brunix

namespace Screen

variable {gc gk : Cell} {v : Nat → Cell} {c k : Kind} {x y : Nat}

/-! ### After a character that leaves its row

The screen is painted, but for the last cell of the row, which may hold the character. -/

theorem incY_put (hy : y < 25) (hk : k ≠ .printable) :
    (put gk k ⟨v, 0, y⟩).incY.scroll = put gk k (scroll ⟨v, 0, y + 1⟩) := by
  obtain hlow | rfl | rfl : y < 23 ∨ y = 23 ∨ y = 24 := by omega
  all_goals cases k with
    | printable => exact absurd rfl hk
    | _ => simp (disch := omega)

theorem returnX_put (hy : y < 25) (hk : k = .backspace ∨ k = .carriageReturn ∨ k = .newline) :
    (put gk k ⟨v, 80, y⟩).returnX.incY.scroll = put gk k (scroll ⟨v, 0, y + 1⟩) := by
  obtain hlow | rfl | rfl : y < 23 ∨ y = 23 ∨ y = 24 := by omega
  all_goals rcases hk with rfl | rfl | rfl <;> simp (disch := omega)

theorem wrap_put_inert (hy : y < 25) :
    put gk .inert ⟨v, 80, y⟩ = put gk .inert (scroll ⟨v, 0, y + 1⟩) := by
  obtain hlow | rfl : y < 24 ∨ y = 24 := by omega
  all_goals simp (disch := omega)

structure AlmostPainted (v : Nat → Cell) (y : Nat) : Prop where
  old : ∀ cell, cell ≠ y * 80 + 79 → v cell = paint cell
  last : v (y * 80 + 79) = paint (y * 80 + 79) ∨ (v (y * 80 + 79)).toNat < 256

theorem branch_almostPainted (hgc : gc.toNat < 256) (hx : x < 80) (hc : c.Leaves x) :
    AlmostPainted (branch gc c ⟨paint, x, y⟩).cells y := by
  have hpaint : AlmostPainted paint y := ⟨fun _ _ => rfl, .inl rfl⟩
  rcases hc with rfl | hwraps
  · exact hpaint
  · rcases hwraps.cases hx with ⟨rfl, rfl⟩ | ⟨rfl, -⟩
    · refine ⟨fun cell hcell => Function.update_of_ne hcell _ _, .inr ?_⟩
      change (Function.update paint (y * 80 + 79) gc (y * 80 + 79)).toNat < 256
      rwa [Function.update_self]
    · exact hpaint

theorem AlmostPainted.row (hv : AlmostPainted v y) (row : Nat) : v (row * 80) = paint (row * 80) :=
  hv.old _ (by omega)

theorem AlmostPainted.last_ne_blank (hv : AlmostPainted v 24) : v 1999 ≠ blank := by
  rcases hv.last with hold | hglyph
  · exact hold.trans_ne (paint_ne_blank (by omega))
  · exact glyph_ne_blank hglyph

theorem leaves_painted (hgc : gc.toNat < 256) (hx : x < 80) (hc : c.Leaves x) (y : Nat) :
    ∃ v, (branch gc c ⟨paint, x, y⟩).cells = v ∧ AlmostPainted v y
      ∧ put gc c ⟨paint, x, y⟩ = scroll ⟨v, 0, y + 1⟩ :=
  ⟨_, rfl, branch_almostPainted hgc hx hc, put_leaves (S := ⟨paint, x, y⟩) hc gc⟩

theorem nextRow_valid (v : Nat → Cell) (y : Nat) : (scroll ⟨v, 0, y + 1⟩).Valid := by
  refine ⟨?_, scroll_y_lt _⟩
  rw [scroll_x]
  exact Nat.zero_lt_succ 79

/-- A missing line feed is seen. -/
theorem not_same_behind (hy : y < 25) (hv : AlmostPainted v y) :
    ¬ Same ⟨v, 0, y⟩ (scroll ⟨v, 0, y + 1⟩) := by
  have h0 : v 0 = paint 0 := hv.row 0
  have h1 : v 80 = paint 80 := hv.row 1
  obtain rfl | hrow : y = 24 ∨ y < 24 := by omega
  · exact not_same_cell 0 (by omega) (by simp (disch := omega) [scrolled_apply, h0, h1])
  · exact not_same_y (by simp (disch := omega))

/-- A second line feed is seen. -/
theorem not_same_ahead (hy : y < 25) (hv : AlmostPainted v y) :
    ¬ Same (scroll ⟨v, 0, y + 1⟩) (put gk .newline (scroll ⟨v, 0, y + 1⟩)) := by
  have h0 : v 0 = paint 0 := hv.row 0
  have h1 : v 80 = paint 80 := hv.row 1
  have h2 : v 160 = paint 160 := hv.row 2
  obtain rfl | rfl | hrow : y = 24 ∨ y = 23 ∨ y < 23 := by omega
  · exact not_same_cell 0 (by omega) (by simp (disch := omega) [scrolled_apply, h1, h2])
  · exact not_same_cell 0 (by omega) (by simp (disch := omega) [scrolled_apply, h0, h1])
  · exact not_same_y (by simp (disch := omega))

theorem wrap_not_serial (hgc : gc.toNat < 256) (hgk : gk.toNat < 256) (hx : x < 80) (hy : y < 25)
    (hc : c.Wraps x) (hk : k ≠ .inert) (hlast : k = .printable → y < 24) :
    ¬ Serial gc gk c k ⟨paint, x, y⟩ (put gk k ⟨(branch gc c ⟨paint, x, y⟩).cells, 80, y⟩) := by
  obtain ⟨v, hcells, hv, hput⟩ := leaves_painted hgc hx (.inr hc) y
  rw [hcells, Serial, hput]
  intro hserial
  rcases hserial with hsame | hsame
  · cases k with
    | inert => exact absurd rfl hk
    | carriageReturn =>
        apply not_same_behind hy hv
        have hback : put gk .carriageReturn (scroll ⟨v, 0, y + 1⟩) = scroll ⟨v, 0, y + 1⟩ :=
          put_idle gk (nextRow_valid v y) (branch_home gk (.inr rfl) (scroll_x _))
        rwa [hback, put_mk, branch_carriageReturn, wrap_lt v (by omega), scroll_lt v hy] at hsame
    | newline =>
        rw [put_mk, branch_newline, wrap_lt v (by omega)] at hsame
        exact not_same_ahead hy hv hsame
    | _ => grind [hsame.x, put_x, scroll_x, Kind.column, Kind.advance]
  · rcases hc.cases hx with ⟨rfl, rfl⟩ | ⟨rfl, hhigh⟩
    · cases k with
      | inert => exact absurd rfl hk
      | backspace =>
          subst hcells
          exact not_same_cell (y * 80 + 79) (by omega) (by simp (disch := omega)) hsame
      | _ => grind [hsame.x, put_x, Kind.column, Kind.advance]
    · cases k with
      | inert => exact absurd rfl hk
      | printable =>
          have hrow := hlast rfl
          obtain rfl | hcol : x = 79 ∨ x < 79 := by omega
          · grind [hsame.x, put_x, Kind.column, Kind.advance]
          · exact not_same_cell (y * 80 + 80) (by omega) (by simp (disch := omega)) hsame
      | _ => grind [hsame.x, put_x, Kind.column, Kind.advance]

theorem wrapX_not_serial (hgc : gc.toNat < 256) (hx : x < 80) (hy : y < 25) (hc : c.Wraps x)
    (hk : k = .inert ∨ k = .tab ∨ k = .printable) (hlast : k = .printable → y < 24) :
    ¬ Serial gc gk c k ⟨paint, x, y⟩
      (put gk k ⟨(branch gc c ⟨paint, x, y⟩).cells, 80, y⟩).returnX.incY.scroll := by
  obtain ⟨v, hcells, hv, hput⟩ := leaves_painted hgc hx (.inr hc) y
  rw [hcells]
  have hfirst (hsame : Same (put gk k ⟨v, 80, y⟩).returnX.incY.scroll
      (put gk k (put gc c ⟨paint, x, y⟩))) : k.column 0 = 0 := by
    have hcolumn := hsame.x
    rw [scroll_x, put_x, put_x, Kind.Leaves.column_eq (.inr hc)] at hcolumn
    exact hcolumn.symm
  have hsecond (hsame : Same (put gk k ⟨v, 80, y⟩).returnX.incY.scroll
      (put gc c (put gk k ⟨paint, x, y⟩))) : c.column (k.column x) = 0 := by
    have hcolumn := hsame.x
    rw [scroll_x, put_x, put_x] at hcolumn
    exact hcolumn.symm
  rcases hk with rfl | rfl | rfl
  · have htwice : (put gk .inert ⟨v, 80, y⟩).returnX.incY.scroll
        = put gk .newline (scroll ⟨v, 0, y + 1⟩) := by
      obtain rfl | rfl | hrow : y = 24 ∨ y = 23 ∨ y < 23 := by omega
      all_goals simp (disch := omega)
    have hafter : put gk .inert (scroll ⟨v, 0, y + 1⟩) = scroll ⟨v, 0, y + 1⟩ :=
      put_idle gk (nextRow_valid v y) rfl
    have hbefore : put gk .inert ⟨paint, x, y⟩ = ⟨paint, x, y⟩ := put_idle gk ⟨hx, hy⟩ rfl
    rw [htwice, Serial, hput, hafter, hbefore, hput, or_self]
    intro hsame
    exact not_same_ahead hy hv hsame.symm
  · intro hserial
    rcases hserial with hsame | hsame
    · exact absurd (hfirst hsame) (by decide)
    · rcases hc.cases hx with ⟨rfl, rfl⟩ | ⟨rfl, hhigh⟩
      · exact absurd (hsecond hsame) (by decide)
      · grind [hsecond hsame, Kind.column, Kind.advance]
  · have hrow := hlast rfl
    intro hserial
    rcases hserial with hsame | hsame
    · exact absurd (hfirst hsame) (by decide)
    · rcases hc.cases hx with ⟨rfl, rfl⟩ | ⟨rfl, hhigh⟩
      · exact absurd (hsecond hsame) (by decide)
      · obtain rfl | ⟨hcol, rfl⟩ | ⟨hcol, hlow⟩ : x = 79 ∨ x < 79 ∧ y = 23 ∨ x < 79 ∧ y < 23 := by
          omega
        · exact absurd (hsecond hsame) (by decide)
        · have h1 : v 80 = paint 80 := hv.row 1
          exact not_same_cell 0 (by omega) (by simp (disch := omega) [scrolled_apply, h1]) hsame
        · exact not_same_y (by simp (disch := omega)) hsame

/-- A glyph put in a row the cursor is about to leave stays in it. -/
theorem incY_not_serial (hgc : gc.toNat < 256) (hgk : gk.toNat < 256) (hx : x < 80) (hy : y < 25)
    (hc : c.Leaves x) :
    ¬ Serial gc gk c .printable ⟨paint, x, y⟩
      (put gk .printable ⟨(branch gc c ⟨paint, x, y⟩).cells, 0, y⟩).incY.scroll := by
  obtain ⟨v, hcells, hv, hput⟩ := leaves_painted hgc hx hc y
  have hrow : v (y * 80) = paint (y * 80) := hv.row y
  rw [hcells, Serial, hput]
  intro hserial
  rcases hserial with hsame | hsame
  · obtain rfl | hlow : y = 24 ∨ y < 24 := by omega
    · have hrow : v 1920 = paint 1920 := hrow
      exact not_same_cell 1840 (by omega) (by simp (disch := omega) [scrolled_apply, hrow]) hsame
    · exact not_same_cell (y * 80) (by omega) (by simp (disch := omega) [hrow]) hsame
  · have hcolumn := hsame.x
    rw [scroll_x, incY, put_x, put_x, put_x] at hcolumn
    rcases hc with rfl | hwraps
    · grind [Kind.column, Kind.advance]
    · rcases hwraps.cases hx with ⟨rfl, rfl⟩ | ⟨rfl, hhigh⟩
      · obtain rfl | hlow : y = 24 ∨ y < 24 := by omega
        · exact not_same_cell 1840 (by omega) (by simp (disch := omega) [scrolled_apply]) hsame
        · exact not_same_cell (y * 80) (by omega) (by simp (disch := omega)) hsame
      · grind [Kind.column, Kind.advance]

/-! ### While the screen scrolls -/

/-- After a character that leaves its row the other order of a kind that stores nothing is seen in the
column, or it makes no difference. -/
theorem orders_agree (hx : x < 80) (hy : y < 25) (hc : c.Leaves x) (hk : k ≠ .printable) :
    (put gc c (put gk k ⟨v, x, y⟩)).x ≠ (put gk k (put gc c ⟨v, x, y⟩)).x
      ∨ put gc c (put gk k ⟨v, x, y⟩) = put gk k (put gc c ⟨v, x, y⟩) := by
  simp only [put_x]
  have hlast : y = 24 ∨ y = 23 ∨ y < 23 := by omega
  rcases hc with rfl | hwraps
  · cases k with
    | printable => exact absurd rfl hk
    | tab => exact .inl (by grind [Kind.column, Kind.advance])
    | newline => exact .inr rfl
    | _ =>
        right
        rcases hlast with rfl | rfl | hlow <;> simp (disch := omega)
  · rcases hwraps.cases hx with ⟨rfl, rfl⟩ | ⟨rfl, hhigh⟩
    · cases k with
      | printable => exact absurd rfl hk
      | inert =>
          right
          rcases hlast with rfl | rfl | hlow <;> simp (disch := omega)
      | _ => exact .inl (by decide)
    · cases k with
      | printable => exact absurd rfl hk
      | carriageReturn => exact .inl (by grind [Kind.column, Kind.advance])
      | newline => exact .inl (by grind [Kind.column, Kind.advance])
      | backspace =>
          obtain rfl | hlow : x = 72 ∨ 72 < x := by omega
          · exact .inl (by decide)
          · right
            rcases hlast with rfl | rfl | hlow <;> simp (disch := omega)
      | _ =>
          right
          rcases hlast with rfl | rfl | hlow <;> simp (disch := omega)

theorem not_serial_of_first {R : Screen} (hx : x < 80) (hy : y < 25) (hc : c.Leaves x)
    (hk : k ≠ .printable) (hcolumn : R.x = (put gk k (put gc c ⟨v, x, y⟩)).x)
    (hfirst : ¬ Same R (put gk k (put gc c ⟨v, x, y⟩))) : ¬ Serial gc gk c k ⟨v, x, y⟩ R := by
  intro hserial
  rcases hserial with hsame | hsame
  · exact hfirst hsame
  · rcases orders_agree hx hy hc hk with hmiss | heq
    · exact hmiss (hsame.x.symm.trans hcolumn)
    · rw [heq] at hsame
      exact hfirst hsame

theorem scroll_put (hk : k ≠ .printable) (hfeed : k ≠ .newline) :
    put gk k ⟨v, 0, 25⟩ = put gk k (scroll ⟨v, 0, 25⟩) := by
  cases k with
  | printable => exact absurd rfl hk
  | newline => exact absurd rfl hfeed
  | _ => simp (disch := omega)

theorem copyFrom_put_newline :
    (put gk .newline ⟨v, 0, 25⟩).copyFrom 0 = put gk .newline (scroll ⟨v, 0, 25⟩) := by
  simp (disch := omega)
  rfl

theorem fillFrom_put_newline :
    (put gk .newline ⟨scrolled v, 0, 25⟩).fillFrom 2000 = put gk .newline (scroll ⟨v, 0, 25⟩) := by
  simp (disch := omega) [filled_self]

/-- Two line feeds that need one scroll each get only one. -/
theorem scroll_not_serial (hgc : gc.toNat < 256) (hx : x < 80) (hc : c.Leaves x) :
    ¬ Serial gc gk c .newline ⟨paint, x, 24⟩
      (put gk .newline ⟨(branch gc c ⟨paint, x, 24⟩).cells, 0, 25⟩) := by
  obtain ⟨v, hcells, hv, hput⟩ := leaves_painted hgc hx hc 24
  rw [hcells]
  apply not_serial_of_first hx (by omega) hc (by decide)
  · rw [hput, put_x, put_x, scroll_x]
  · have honce : put gk .newline ⟨v, 0, 25⟩ = scroll ⟨v, 0, 24 + 1⟩ := by simp (disch := omega)
    rw [hput, honce]
    exact not_same_ahead (by omega) hv

/-- The two loops copy and blank what the other scroll has already moved. -/
theorem copyFrom_not_serial {i : Nat} (hgc : gc.toNat < 256) (hi : i < 1920) (hx : x < 80)
    (hc : c.Leaves x) (hk : k ≠ .printable) (hfeed : k = .newline → i ≠ 0) :
    ¬ Serial gc gk c k ⟨paint, x, 24⟩
      ((put gk k ⟨shifted 0 i (branch gc c ⟨paint, x, 24⟩).cells, 0, 25⟩).copyFrom i) := by
  obtain ⟨v, hcells, hv, hput⟩ := leaves_painted hgc hx hc 24
  rw [hcells]
  apply not_serial_of_first hx (by omega) hc hk
  · rw [hput, copyFrom, put_x, put_x, scroll_x]
  rw [hput]
  cases k with
  | printable => exact absurd rfl hk
  | newline =>
      have hpos := hfeed rfl
      apply not_same_cell (i - 1) (by omega)
      have hleft : ((put gk .newline ⟨shifted 0 i v, 0, 25⟩).copyFrom i).cells (i - 1)
          = v (i - 1 + 80) := by
        simp (disch := omega) only [put_mk, branch_newline, wrap_lt, scroll_ge, copyFrom_mk, filled,
          shifted, scrolled_apply, if_pos, if_neg]
      have hright : (put gk .newline (scroll ⟨v, 0, 24 + 1⟩)).cells (i - 1)
          = scrolled v (i - 1 + 80) := by
        simp (disch := omega) only [put_mk, branch_newline, wrap_lt, scroll_ge, scrolled_apply, if_pos]
      rw [hleft, hright, hv.old _ (by omega), scrolled_apply]
      obtain hlow | rfl | hhigh : i < 1840 ∨ i = 1840 ∨ 1840 < i := by omega
      · rw [if_pos (by omega), hv.old _ (by omega), ne_eq, paint_inj (by omega) (by omega)]
        omega
      · rw [if_pos (by omega)]
        rcases hv.last with hold | hglyph
        · exact hold ▸ by simp (disch := omega)
        · exact paint_ne_glyph hglyph (by omega)
      · rw [if_neg (by omega), if_pos (by omega)]
        exact paint_ne_blank (by omega)
  | _ =>
      apply not_same_cell 1919 (by omega)
      simp (disch := omega) only [put_mk, branch_backspace, branch_tab, branch_carriageReturn,
        branch_inert, wrap_lt, scroll_ge, scroll_lt, copyFrom_mk, filled, shifted, scrolled_apply,
        if_pos, if_neg]
      exact hv.last_ne_blank.symm

theorem fillFrom_not_serial {i : Nat} (hgc : gc.toNat < 256) (hlo : 1920 ≤ i) (hhi : i ≤ 2000)
    (hx : x < 80) (hc : c.Leaves x) (hk : k ≠ .printable) (hfeed : k = .newline → i < 2000) :
    ¬ Serial gc gk c k ⟨paint, x, 24⟩
      ((put gk k ⟨filled 1920 i blank (shifted 0 1920 (branch gc c ⟨paint, x, 24⟩).cells), 0,
        25⟩).fillFrom i) := by
  obtain ⟨v, hcells, hv, hput⟩ := leaves_painted hgc hx hc 24
  rw [hcells]
  apply not_serial_of_first hx (by omega) hc hk
  · rw [hput, fillFrom, put_x, put_x, scroll_x]
  rw [hput]
  cases k with
  | printable => exact absurd rfl hk
  | newline =>
      have hpos := hfeed rfl
      apply not_same_cell 1919 (by omega)
      simp (disch := omega) only [put_mk, branch_newline, wrap_lt, scroll_ge, fillFrom_mk, filled,
        shifted, scrolled_apply, if_pos, if_neg]
      exact hv.last_ne_blank
  | _ =>
      apply not_same_cell 0 (by omega)
      simp (disch := omega) only [put_mk, branch_backspace, branch_tab, branch_carriageReturn,
        branch_inert, wrap_lt, scroll_ge, scroll_lt, fillFrom_mk, filled, shifted, scrolled_apply,
        if_pos, if_neg, hv.old, ne_eq, paint_inj]
      omega

/-! ### Before the line wrap is tested -/

theorem testWrap_serial (hx : x < 80) (hy : y < 25) (hwraps : c.Wraps x → k = .inert)
    (hfeed : c = .newline ∧ y = 24 → k ≠ .printable ∧ k ≠ .newline) :
    (k = .printable →
        (branch gc c ⟨v, x, y⟩).y * 80 + (branch gc c ⟨v, x, y⟩).x < 2000)
      ∧ Serial gc gk c k ⟨v, x, y⟩ (put gk k (branch gc c ⟨v, x, y⟩)) := by
  by_cases hc : c.Wraps x
  · obtain rfl := hwraps hc
    refine ⟨fun hk => absurd hk (by decide), .inl (.of_eq ?_)⟩
    rw [put_leaves (S := ⟨v, x, y⟩) (.inr hc), branch_wraps (S := ⟨v, x, y⟩) hx hc]
    exact wrap_put_inert hy
  by_cases hlast : c = .newline ∧ y = 24
  · obtain ⟨hprint, hk⟩ := hfeed hlast
    obtain ⟨rfl, rfl⟩ := hlast
    exact ⟨fun hk => absurd hk hprint, .inl (.of_eq (scroll_put hprint hk))⟩
  · have hvalid := branch_valid (S := ⟨v, x, y⟩) ⟨hx, hy⟩ hc hlast gc
    refine ⟨fun _ => ?_, .inl (.of_eq ?_)⟩
    · have hcol := hvalid.1
      have hrow := hvalid.2
      omega
    · rw [put, put, put, settled hvalid]

theorem testWrap_not_serial (hgc : gc.toNat < 256) (hgk : gk.toNat < 256) (hx : x < 80) (hy : y < 25)
    (hstore : k = .printable →
      (branch gc c ⟨v, x, y⟩).y * 80 + (branch gc c ⟨v, x, y⟩).x < 2000)
    (hserial : Serial gc gk c k ⟨paint, x, y⟩ (put gk k (branch gc c ⟨paint, x, y⟩))) :
    (c.Wraps x → k = .inert) ∧ (c = .newline ∧ y = 24 → k ≠ .printable ∧ k ≠ .newline) := by
  constructor
  · intro hc
    rw [branch_wraps (S := ⟨paint, x, y⟩) hx hc] at hserial
    rw [branch_wraps (S := ⟨v, x, y⟩) hx hc] at hstore
    by_contra hk
    exact wrap_not_serial hgc hgk hx hy hc hk
      (fun hprint => by have := hstore hprint; dsimp only at this; omega) hserial
  · intro hlast
    obtain ⟨rfl, rfl⟩ := hlast
    refine ⟨fun hprint => absurd (hstore hprint) (by simp), ?_⟩
    intro hfeed
    subst hfeed
    exact scroll_not_serial hgc hx (.inl rfl) hserial

/-! ### Before the scroll is tested -/

theorem testScroll_serial (hx : x < 80) (hy : y < 25)
    (h : c.Leaves x ∧ y = 24 → k ≠ .printable ∧ k ≠ .newline) :
    (k = .printable →
        (branch gc c ⟨v, x, y⟩).wrap.y * 80 + (branch gc c ⟨v, x, y⟩).wrap.x < 2000)
      ∧ Serial gc gk c k ⟨v, x, y⟩ (put gk k (branch gc c ⟨v, x, y⟩).wrap) := by
  by_cases hlast : c.Leaves x ∧ y = 24
  · obtain ⟨hprint, hk⟩ := h hlast
    obtain ⟨hc, rfl⟩ := hlast
    refine ⟨fun hk => absurd hk hprint, .inl (.of_eq ?_)⟩
    rw [put_leaves (S := ⟨v, x, 24⟩) hc, wrap_leaves (S := ⟨v, x, 24⟩) hc]
    exact scroll_put hprint hk
  · have hvalid := wrap_valid (S := ⟨v, x, y⟩) ⟨hx, hy⟩ hlast gc
    refine ⟨fun _ => ?_, .inl (.of_eq ?_)⟩
    · have hcol := hvalid.1
      have hrow := hvalid.2
      omega
    · rw [put, put, put, scroll_valid hvalid]

theorem testScroll_not_serial (hgc : gc.toNat < 256) (hx : x < 80)
    (hstore : k = .printable →
      (branch gc c ⟨v, x, y⟩).wrap.y * 80 + (branch gc c ⟨v, x, y⟩).wrap.x < 2000)
    (hserial : Serial gc gk c k ⟨paint, x, y⟩ (put gk k (branch gc c ⟨paint, x, y⟩).wrap)) :
    c.Leaves x ∧ y = 24 → k ≠ .printable ∧ k ≠ .newline := by
  intro hlast
  obtain ⟨hc, rfl⟩ := hlast
  rw [wrap_leaves (S := ⟨paint, x, 24⟩) hc] at hserial
  rw [wrap_leaves (S := ⟨v, x, 24⟩) hc] at hstore
  refine ⟨fun hprint => absurd (hstore hprint) (by simp), ?_⟩
  intro hfeed
  subst hfeed
  exact scroll_not_serial hgc hx hc hserial

end Screen

end Brunix
