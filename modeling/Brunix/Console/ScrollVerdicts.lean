import Brunix.Console.BranchVerdicts

/-!
# Interrupted at the line wrap and in the scroll

The handler may find the cursor in column 80 or in row 25. It then wraps or scrolls itself, and the
interrupted character does so again, or finds nothing left to do.
-/

namespace Brunix

open Vga Basis Thread Screen

variable {c k : Byte} {s t w : Vga}

/-! ### Interrupted at the line wrap -/

def afterWrap : Thread Point Vga := scrollThread.andThen moveCursorThread

theorem stage_putcBranch (hs : s.screen.Valid) (hlog : s.OnScreen) (c : Byte) :
    Stage s (putcBranch c s)
      (fun v => branch (glyph c s) (kind c) ⟨v, s.cursorX, s.cursorY⟩) := by
  have hx : s.cursorX < 80 := hs.1
  have hy : s.cursorY < 25 := hs.2
  exact ⟨screen_putcBranch (by omega) (by omega) c,
    (onScreen_putcBranch s c).mpr ⟨fun _ => by omega, hlog⟩, attributeByte_putcBranch s c⟩

theorem verdict_of_wrap {rest : Thread Point Vga} {R : (Nat → Cell) → Screen} (hs : s.screen.Valid)
    (hscreen : (rest.run (vgaPutc t k)).screen = R s.videoMemory) (hcol : (R s.videoMemory).x < 80)
    (hlog : (rest.run (vgaPutc t k)).OnScreen ↔ (vgaPutc t k).OnScreen)
    (hsafe : Safe (kind c) (kind k) s.cursorX s.cursorY (rest.andThen afterWrap).point →
      (vgaPutc t k).OnScreen
        ∧ Serial (glyph c s) (glyph k s) (kind c) (kind k) ⟨s.videoMemory, s.cursorX, s.cursorY⟩
            (R s.videoMemory).scroll)
    (hrisk : (glyph c s).toNat < 256 → (glyph k s).toNat < 256 → (vgaPutc t k).OnScreen →
      Serial (glyph c s) (glyph k s) (kind c) (kind k) ⟨paint, s.cursorX, s.cursorY⟩ (R paint).scroll →
      Safe (kind c) (kind k) s.cursorX s.cursorY (rest.andThen afterWrap).point) :
    Verdict c k s (rest.andThen afterWrap) t := by
  have hrun : (rest.andThen afterWrap).run (vgaPutc t k)
      = moveCursor (scroll (rest.run (vgaPutc t k))) := by
    simp only [afterWrap, run_andThen, run_scrollThread, run_moveCursorThread]
  refine verdict_of_moveCursor (R := fun v => (R v).scroll) hs hrun ?_
    ⟨(scroll_x _).symm ▸ hcol, scroll_y_lt _⟩ ?_ ?_
  · rw [screen_scroll, hscreen]
  · rw [onScreen_scroll, hlog]
    exact hsafe
  · rw [onScreen_scroll, hlog]
    exact hrisk

section Wrap

variable (hs : s.screen.Valid) (hlog : s.OnScreen)
include hs hlog

theorem wraps_of_column (h : 80 ≤ (putcBranch c s).cursorX) : (kind c).Wraps s.cursorX := by
  rw [← screen_x, (stage_putcBranch hs hlog c).screen_eq, branch_x] at h
  exact h

theorem verdict_testWrap (c k : Byte) :
    Verdict c k s (wrapThread.andThen afterWrap) (putcBranch c s) := by
  have hx : s.cursorX < 80 := hs.1
  have hy : s.cursorY < 25 := hs.2
  have hcol := branch_x (glyph c s) (kind c) s.screen
  have hrow := branch_y_le (glyph c s) (kind c) s.screen
  obtain ⟨hput, hvalid, hlogged⟩ := (stage_putcBranch hs hlog c).putc
    (hcol.trans_le ((kind c).advance_le hx)) (Nat.le_trans hrow hy) k
  have hlow : (vgaPutc (putcBranch c s) k).cursorY < 25 := hvalid.2
  refine verdict_of_wrap (R := fun v => (put (glyph k s) (kind k)
      (branch (glyph c s) (kind c) ⟨v, s.cursorX, s.cursorY⟩)).wrap) hs ?_ (wrap_x_lt _) ?_ ?_ ?_
  · rw [run_wrapThread, screen_wrapLine (by omega), hput]
  · rw [run_wrapThread, onScreen_wrapLine]
  · intro hsafe
    obtain ⟨hwraps, hfeed⟩ := hsafe
    rw [hlogged, settled (put_valid _ _ _)]
    exact testWrap_serial hx hy hwraps hfeed
  · intro hgc hgk hstore hserial
    rw [settled (put_valid _ _ _)] at hserial
    exact testWrap_not_serial hgc hgk hx hy (hlogged.mp hstore) hserial

theorem verdict_wrapX (k : Byte) (hwraps : 80 ≤ (putcBranch c s).cursorX) :
    Verdict c k s ((step .wrapX (setCursorX 0) fun _ =>
      statement .wrapY fun s => s.setCursorY (s.cursorY + 1)).andThen afterWrap)
      (putcBranch c s) := by
  have hx : s.cursorX < 80 := hs.1
  have hy : s.cursorY < 25 := hs.2
  have hstage := stage_putcBranch hs hlog c
  have hc := wraps_of_column hs hlog hwraps
  have hbranch (v : Nat → Cell) := branch_wraps (S := ⟨v, s.cursorX, s.cursorY⟩) hx hc (glyph c s)
  obtain ⟨hput, hvalid, hlogged⟩ := hstage.putc (by rw [hbranch])
    (by rw [hbranch]; exact Nat.le_of_lt hy) k
  have hlow : (setCursorX 0 (vgaPutc (putcBranch c s) k)).cursorY < 255 :=
    Nat.lt_trans hvalid.2 (by omega)
  refine verdict_of_wrap (R := fun v => (put (glyph k s) (kind k)
      (branch (glyph c s) (kind c) ⟨v, s.cursorX, s.cursorY⟩)).returnX.incY) hs ?_
      (Nat.zero_lt_succ 79) ?_ ?_ ?_
  · refine (screen_incY (s := setCursorX 0 (vgaPutc (putcBranch c s) k)) hlow).trans ?_
    rw [screen_returnX, hput]
  · exact (onScreen_setCursorY _ _).trans (onScreen_setCursorX _ _)
  · intro hk
    rw [hlogged, hbranch, Serial, put_leaves (S := ⟨s.videoMemory, s.cursorX, s.cursorY⟩) (.inr hc)]
    refine ⟨?_, .inl (.of_eq (returnX_put hy hk))⟩
    rcases hk with hk | hk | hk <;> simp [hk]
  · intro hgc hgk hstore hserial
    rw [hlogged, hbranch] at hstore
    rw [hbranch] at hserial
    have hlast (hk : kind k = .printable) : s.cursorY < 24 := by
      have hcell := hstore hk
      dsimp only at hcell
      omega
    have hlost := (wrapX_not_serial hgc hx hy hc · hlast hserial)
    change kind k = .backspace ∨ kind k = .carriageReturn ∨ kind k = .newline
    generalize kind k = k at hlost ⊢
    cases k <;> simp at hlost ⊢

theorem verdict_wrapY (k : Byte) (hwraps : 80 ≤ (putcBranch c s).cursorX) :
    Verdict c k s ((statement .wrapY fun s => s.setCursorY (s.cursorY + 1)).andThen afterWrap)
      (setCursorX 0 (putcBranch c s)) := by
  have hx : s.cursorX < 80 := hs.1
  have hy : s.cursorY < 25 := hs.2
  have hstage := stage_putcBranch hs hlog c
  have hc := wraps_of_column hs hlog hwraps
  have hbranch (v : Nat → Cell) := branch_wraps (S := ⟨v, s.cursorX, s.cursorY⟩) hx hc (glyph c s)
  have hstage' : Stage s (setCursorX 0 (putcBranch c s))
      (fun v => ⟨(branch (glyph c s) (kind c) ⟨v, s.cursorX, s.cursorY⟩).cells, 0, s.cursorY⟩) := by
    refine ⟨?_, (onScreen_setCursorX _ _).mpr hstage.onScreen, hstage.attributeByte_eq⟩
    rw [screen_returnX, hstage.screen_eq, hbranch]
    rfl
  obtain ⟨hput, hvalid, hlogged⟩ := hstage'.putc_valid ⟨Nat.zero_lt_succ 79, hy⟩ k
  refine verdict_of_wrap (R := fun v => (put (glyph k s) (kind k)
      ⟨(branch (glyph c s) (kind c) ⟨v, s.cursorX, s.cursorY⟩).cells, 0, s.cursorY⟩).incY) hs
    ((screen_incY (Nat.lt_trans hvalid.2 (by omega))).trans (congrArg incY hput))
    (put_valid _ _ _).1 (onScreen_setCursorY _ _) ?_ ?_
  · intro hk
    rw [Serial, put_leaves (S := ⟨s.videoMemory, s.cursorX, s.cursorY⟩) (.inr hc)]
    exact ⟨hlogged, .inl (.of_eq (incY_put hy hk))⟩
  · intro hgc hgk _ hserial hk
    rw [hk] at hserial
    exact incY_not_serial hgc hgk hx hy (.inr hc) hserial

theorem inside_wrapThread (c k : Byte) :
    Inside (fun rest t => Verdict c k s (rest.andThen afterWrap) t) wrapThread (putcBranch c s) :=
  inside_test (verdict_testWrap hs hlog c k)
    (fun hwraps => ⟨verdict_wrapX hs hlog k hwraps,
      inside_statement (verdict_wrapY hs hlog k hwraps)⟩)
    fun _ => trivial

end Wrap

/-! ### Interrupted in the scroll -/

/-- What is left of the loops of `scroll` does to the screen. -/
theorem fillRest_spec {i : Nat} (hhi : i ≤ 2000) (u : Vga) :
    (setCursorY 24 (forRange i 2000 (fun i => storeCell i blank) u)).screen = u.screen.fillFrom i
      ∧ ((setCursorY 24 (forRange i 2000 (fun i => storeCell i blank) u)).OnScreen ↔ u.OnScreen) := by
  obtain ⟨log, hfill, hlog⟩ := fillLoop_spec hhi (Nat.le_refl _) blank u
  rw [hfill]
  exact ⟨rfl, (onScreen_setCursorY _ _).trans (onScreen_append u rfl hlog)⟩

theorem copyRest_spec {i : Nat} (hi : i ≤ 1920) (u : Vga) :
    (setCursorY 24 (forRange 1920 2000 (fun i => storeCell i blank)
        (forRange i 1920 (fun i => copyCell i (i + 80)) u))).screen = u.screen.copyFrom i
      ∧ ((setCursorY 24 (forRange 1920 2000 (fun i => storeCell i blank)
        (forRange i 1920 (fun i => copyCell i (i + 80)) u))).OnScreen ↔ u.OnScreen) := by
  obtain ⟨log, hcopy, hlog⟩ := copyLoop_spec hi (Nat.le_refl _) u
  obtain ⟨hscreen, hon⟩ := fillRest_spec (show 1920 ≤ 2000 by omega)
    (forRange i 1920 (fun i => copyCell i (i + 80)) u)
  refine ⟨?_, ?_⟩
  · rw [hscreen, hcopy]
    rfl
  · rw [hon, hcopy]
    exact onScreen_append u rfl hlog

/-- A loop moves cells, keeps to the screen and changes nothing else. -/
theorem Stage.cells {cells T : (Nat → Cell) → Nat → Cell} (h : Stage s t fun v => ⟨cells v, 0, 25⟩)
    {log : List Access} (hlog : ∀ access ∈ log, access.Ok)
    (hw : w = { t with videoMemory := T t.videoMemory, accesses := log ++ t.accesses }) :
    Stage s w fun v => ⟨T (cells v), 0, 25⟩ := by
  subst hw
  refine ⟨?_, (onScreen_append t rfl hlog).mpr h.onScreen, h.attributeByte_eq⟩
  have hcells := congrArg Screen.cells h.screen_eq
  have hx := congrArg Screen.x h.screen_eq
  have hy := congrArg Screen.y h.screen_eq
  exact Screen.ext (congrArg T hcells) hx hy

theorem Stage.copy {cells : (Nat → Cell) → Nat → Cell} (h : Stage s t fun v => ⟨cells v, 0, 25⟩)
    {i : Nat} (hi : i ≤ 1920) :
    Stage s (forRange 0 i (fun i => copyCell i (i + 80)) t) fun v => ⟨shifted 0 i (cells v), 0, 25⟩ := by
  obtain ⟨log, hcopy, hlog⟩ := copyLoop_spec (Nat.zero_le i) hi t
  exact h.cells hlog hcopy

theorem Stage.fill {cells : (Nat → Cell) → Nat → Cell} (h : Stage s t fun v => ⟨cells v, 0, 25⟩)
    {i : Nat} (hlo : 1920 ≤ i) (hhi : i ≤ 2000) :
    Stage s (forRange 1920 i (fun i => storeCell i blank) t)
      fun v => ⟨filled 1920 i blank (cells v), 0, 25⟩ := by
  obtain ⟨log, hfill, hlog⟩ := fillLoop_spec hlo hhi blank t
  exact h.cells hlog hfill

section Loops

variable (hs : s.screen.Valid) (hlast : s.cursorY = 24) (hc : (kind c).Leaves s.cursorX)
include hs hlast hc

/-- An interruption in the loops. They stand at the cells `T` has made of the old ones, and `F` is
left to do. -/
theorem verdict_of_loops {rest : Thread Point Vga} {T : (Nat → Cell) → Nat → Cell}
    {F : Screen → Screen}
    (ht : Stage s t fun v => ⟨T (branch (glyph c s) (kind c) ⟨v, s.cursorX, 24⟩).cells, 0, 25⟩)
    (hrun : ∀ u, (rest.run u).screen = F u.screen ∧ ((rest.run u).OnScreen ↔ u.OnScreen))
    (hfinish : ∀ S, S.x < 80 → (F S).Valid)
    (hsafe : Safe (kind c) (kind k) s.cursorX s.cursorY (rest.andThen moveCursorThread).point →
      kind k = .newline ∧ ∀ v, F (put (glyph k s) .newline ⟨T v, 0, 25⟩)
        = put (glyph k s) .newline (Screen.scroll ⟨v, 0, 25⟩))
    (hrisk : (glyph c s).toNat < 256 → kind k ≠ .printable →
      ¬ Safe (kind c) (kind k) s.cursorX s.cursorY (rest.andThen moveCursorThread).point →
      ¬ Serial (glyph c s) (glyph k s) (kind c) (kind k) ⟨paint, s.cursorX, 24⟩
        (F (put (glyph k s) (kind k)
          ⟨T (branch (glyph c s) (kind c) ⟨paint, s.cursorX, 24⟩).cells, 0, 25⟩))) :
    Verdict c k s (rest.andThen moveCursorThread) t := by
  obtain ⟨hput, hvalid, hlogged⟩ := ht.putc (Nat.zero_le _) (Nat.le_refl _) k
  obtain ⟨hscreen, hon⟩ := hrun (vgaPutc t k)
  rw [hput] at hscreen
  refine verdict_of_moveCursor (w := rest.run (vgaPutc t k))
    (R := fun v => F (put (glyph k s) (kind k)
      ⟨T (branch (glyph c s) (kind c) ⟨v, s.cursorX, 24⟩).cells, 0, 25⟩)) hs ?_ hscreen
    (hfinish _ (put_valid _ _ _).1) ?_ ?_
  · rw [run_andThen, run_moveCursorThread]
  · intro h
    obtain ⟨hk, heq⟩ := hsafe h
    rw [hon, hlogged, hk, heq, hlast, Serial,
      put_leaves (S := ⟨s.videoMemory, s.cursorX, 24⟩) hc]
    exact ⟨fun hprint => absurd hprint (by decide), .inl (.of_eq rfl)⟩
  · intro hgc _ hstore hserial
    rw [hon, hlogged] at hstore
    rw [hlast] at hserial
    have hprint : kind k ≠ .printable := fun hk => absurd (hstore hk) (by simp)
    exact of_not_not fun h => hrisk hgc hprint h hserial

theorem verdict_copy {i : Nat} (hi : i < 1920) {rest : Thread Point Vga}
    (ht : Stage s t fun v =>
      ⟨shifted 0 i (branch (glyph c s) (kind c) ⟨v, s.cursorX, 24⟩).cells, 0, 25⟩)
    (hrun : ∀ u, (rest.run u).screen = u.screen.copyFrom i ∧ ((rest.run u).OnScreen ↔ u.OnScreen))
    (hpoint : (rest.andThen moveCursorThread).point = some (.copy i)) :
    Verdict c k s (rest.andThen moveCursorThread) t := by
  refine verdict_of_loops hs hlast hc ht hrun (fun S hx => ⟨hx, Nat.lt_succ_self 24⟩) ?_ ?_
  · rw [hpoint]
    intro hsafe
    obtain ⟨hk, rfl⟩ := hsafe
    refine ⟨hk, fun v => ?_⟩
    rw [shifted_self]
    exact copyFrom_put_newline
  · rw [hpoint]
    exact fun hgc hprint hk => copyFrom_not_serial hgc hi hs.1 hc hprint fun hfeed hzero =>
      hk ⟨hfeed, hzero⟩

theorem verdict_fill {i : Nat} (hlo : 1920 ≤ i) (hhi : i < 2000) {rest : Thread Point Vga}
    (ht : Stage s t fun v => ⟨filled 1920 i blank
      (shifted 0 1920 (branch (glyph c s) (kind c) ⟨v, s.cursorX, 24⟩).cells), 0, 25⟩)
    (hrun : ∀ u, (rest.run u).screen = u.screen.fillFrom i ∧ ((rest.run u).OnScreen ↔ u.OnScreen))
    (hpoint : (rest.andThen moveCursorThread).point = some (.fill i)) :
    Verdict c k s (rest.andThen moveCursorThread) t := by
  refine verdict_of_loops (T := fun v => filled 1920 i blank (shifted 0 1920 v)) hs hlast hc ht hrun
    (fun S hx => ⟨hx, Nat.lt_succ_self 24⟩) ?_ ?_
  · rw [hpoint]
    exact False.elim
  · exact fun hgc hprint _ => fillFrom_not_serial hgc hlo (by omega) hs.1 hc hprint fun _ => hhi

theorem verdict_setRow
    (ht : Stage s t fun v =>
      ⟨scrolled (branch (glyph c s) (kind c) ⟨v, s.cursorX, 24⟩).cells, 0, 25⟩) :
    Verdict c k s ((statement .setRow (setCursorY 24)).andThen moveCursorThread) t := by
  refine verdict_of_loops (F := fillFrom 2000) hs hlast hc ht (fun u => ?_)
    (fun S hx => ⟨hx, Nat.lt_succ_self 24⟩) ?_ ?_
  · have hspec := fillRest_spec (Nat.le_refl 2000) u
    rwa [forRange_self] at hspec
  · exact fun hk => ⟨hk, fun v => fillFrom_put_newline⟩
  · exact fun hgc hprint hk => fillFrom_not_serial hgc (by omega) (Nat.le_refl _) hs.1 hc hprint
      fun hfeed => absurd hfeed hk

end Loops

section Scroll

variable (hs : s.screen.Valid) (hlog : s.OnScreen)
include hs hlog

theorem stage_wrapLine (c : Byte) :
    Stage s (wrapLine (putcBranch c s))
      (fun v => (branch (glyph c s) (kind c) ⟨v, s.cursorX, s.cursorY⟩).wrap) := by
  have hstage := stage_putcBranch hs hlog c
  have hrow : (putcBranch c s).cursorY ≤ s.cursorY + 1 := by
    rw [← screen_y, hstage.screen_eq]
    exact branch_y_le _ _ _
  have hy : s.cursorY < 25 := hs.2
  refine ⟨?_, (onScreen_wrapLine _).mpr hstage.onScreen,
    (attributeByte_wrapLine _).trans hstage.attributeByte_eq⟩
  rw [screen_wrapLine (by omega), hstage.screen_eq]

theorem verdict_testScroll {rest : Thread Point Vga} (k : Byte) (hrun : ∀ u, rest.run u = scroll u)
    (hpoint : Safe (kind c) (kind k) s.cursorX s.cursorY (rest.andThen moveCursorThread).point
      ↔ ((kind c).Leaves s.cursorX ∧ s.cursorY = 24 → kind k ≠ .printable ∧ kind k ≠ .newline)) :
    Verdict c k s (rest.andThen moveCursorThread) (wrapLine (putcBranch c s)) := by
  have hx : s.cursorX < 80 := hs.1
  have hy : s.cursorY < 25 := hs.2
  obtain ⟨hput, hvalid, hlogged⟩ := (stage_wrapLine hs hlog c).putc
    (Nat.le_of_lt (wrap_x_lt _)) (Nat.le_trans (wrap_y_le _ _ _) hy) k
  have hlow : (vgaPutc (wrapLine (putcBranch c s)) k).cursorY < 25 := hvalid.2
  refine verdict_of_moveCursor (w := vgaPutc (wrapLine (putcBranch c s)) k)
    (R := fun v => put (glyph k s) (kind k)
      (branch (glyph c s) (kind c) ⟨v, s.cursorX, s.cursorY⟩).wrap) hs ?_ hput (put_valid _ _ _) ?_ ?_
  · rw [run_andThen, hrun, run_moveCursorThread, scroll_of_lt hlow]
  · rw [hpoint, hlogged]
    exact testScroll_serial hx hy
  · rw [hpoint, hlogged]
    exact fun hgc _ => testScroll_not_serial hgc hx

theorem inside_scrollLoops (k : Byte) (hfull : 25 ≤ (wrapLine (putcBranch c s)).cursorY) :
    Inside (fun rest t => Verdict c k s (rest.andThen moveCursorThread) t) scrollLoops
      (wrapLine (putcBranch c s)) := by
  have hstage := stage_wrapLine hs hlog c
  obtain ⟨hc, hlast⟩ : (kind c).Leaves s.cursorX ∧ s.cursorY = 24 := by
    by_contra hstays
    have hvalid := wrap_valid hs hstays (glyph c s)
    rw [← screen_y, hstage.screen_eq] at hfull
    exact Nat.not_le.mpr hvalid.2 hfull
  have hwrapped : Stage s (wrapLine (putcBranch c s))
      fun v => ⟨(branch (glyph c s) (kind c) ⟨v, s.cursorX, 24⟩).cells, 0, 25⟩ := by
    simpa only [hlast, wrap_leaves (S := ⟨_, s.cursorX, 24⟩) hc] using hstage
  have hcopied := hwrapped.copy (Nat.le_refl 1920)
  refine inside_andThen (inside_loop fun j hj => ?_) <|
    inside_andThen (inside_loop fun j hj => ?_) (inside_statement ?_)
  · have hj : j < 1920 := hj
    have hstate := hwrapped.copy (Nat.le_of_lt hj)
    refine verdict_copy hs hlast hc hj ?_ ?_ ?_
    · simpa [forRange] using hstate
    · intro u
      have hspec := copyRest_spec (Nat.le_of_lt hj) u
      simpa [forRange] using hspec
    · rw [andThen_assoc, point_loop _ _ (show 0 < 24 * 80 - 0 * 80 - j by omega),
        show 0 * 80 + j = j by omega]
  · have hj : j < 80 := hj
    have hstate := hcopied.fill (i := 1920 + j) (by omega) (by omega)
    refine verdict_fill (i := 1920 + j) hs hlast hc (by omega) (by omega) ?_ ?_ ?_
    · simpa [forRange] using hstate
    · intro u
      have hspec := fillRest_spec (i := 1920 + j) (by omega) u
      rw [forRange, show 2000 - (1920 + j) = 80 - j by omega] at hspec
      simpa using hspec
    · rw [andThen_assoc, point_loop _ _ (show 0 < 25 * 80 - 24 * 80 - j by omega)]
  · have hstate := hcopied.fill (i := 2000) (by omega) (by omega)
    apply verdict_setRow hs hlast hc
    simpa [forRange, scrolled] using hstate

theorem inside_scrollThread (c k : Byte) :
    Inside (fun rest t => Verdict c k s (rest.andThen moveCursorThread) t) scrollThread
      (wrapLine (putcBranch c s)) :=
  ⟨verdict_testScroll hs hlog k run_scrollThread Iff.rfl,
    verdict_testScroll hs hlog k run_scrollThread Iff.rfl,
    inside_test (verdict_testScroll hs hlog k run_scrollThread Iff.rfl)
      (inside_scrollLoops hs hlog k) fun _ => trivial⟩

end Scroll
end Brunix
