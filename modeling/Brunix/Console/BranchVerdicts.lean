import Brunix.Console.LineRaces
import Brunix.Console.Preemption

/-!
# Interrupted before the line wrap

Up to the statement that uses the cursor the handler simply goes first. From there on the branch acts
on a cursor it has read, or half moved, before the handler moved it.
-/

namespace Brunix

open Vga Basis Thread Screen

variable {c k : Byte} {s t w : Vga}

/-- A console `vga_putc` has got to: `B` is its screen, whatever the cells were. -/
structure Stage (s t : Vga) (B : (Nat → Cell) → Screen) : Prop where
  screen_eq : t.screen = B s.videoMemory
  onScreen : t.OnScreen
  attributeByte_eq : t.attributeByte = s.attributeByte

theorem Stage.putc {B : (Nat → Cell) → Screen} (h : Stage s t B) (hx : (B s.videoMemory).x ≤ 80)
    (hy : (B s.videoMemory).y ≤ 25) (k : Byte) :
    (vgaPutc t k).screen = (B s.videoMemory).put (glyph k s) (kind k)
      ∧ (vgaPutc t k).screen.Valid
      ∧ ((vgaPutc t k).OnScreen ↔
          (kind k = .printable → (B s.videoMemory).y * 80 + (B s.videoMemory).x < 2000)) := by
  rw [← h.screen_eq] at hx hy ⊢
  refine ⟨?_, vgaPutc_valid hx hy k, ?_⟩
  · rw [screen_vgaPutc hx hy, glyph_congr h.attributeByte_eq]
  · rw [onScreen_vgaPutc]
    exact and_iff_left h.onScreen

theorem Stage.putc_valid {B : (Nat → Cell) → Screen} (h : Stage s t B)
    (hvalid : (B s.videoMemory).Valid) (k : Byte) :
    (vgaPutc t k).screen = (B s.videoMemory).put (glyph k s) (kind k)
      ∧ (vgaPutc t k).screen.Valid ∧ (vgaPutc t k).OnScreen := by
  have hx := hvalid.1
  have hy := hvalid.2
  obtain ⟨hput, hscreen, hlogged⟩ := h.putc (Nat.le_of_lt hx) (Nat.le_of_lt hy) k
  exact ⟨hput, hscreen, hlogged.mpr fun _ => by omega⟩

theorem stage_start (hlog : s.OnScreen) : Stage s s fun v => ⟨v, s.cursorX, s.cursorY⟩ :=
  ⟨rfl, hlog, rfl⟩

def afterBranch : Thread Point Vga := wrapThread.andThen (scrollThread.andThen moveCursorThread)

theorem run_andThen_afterBranch (rest : Thread Point Vga) (u : Vga) :
    (rest.andThen afterBranch).run u = moveCursor (scroll (wrapLine (rest.run u))) := by
  simp only [afterBranch, run_andThen, run_wrapThread, run_scrollThread, run_moveCursorThread]

theorem verdict_of_branch {rest : Thread Point Vga} {R : (Nat → Cell) → Screen}
    (hs : s.screen.Valid) (hscreen : (rest.run (vgaPutc t k)).screen = R s.videoMemory)
    (hrow : (R s.videoMemory).y < 255) (hlog : (rest.run (vgaPutc t k)).OnScreen)
    (hsafe : Safe (kind c) (kind k) s.cursorX s.cursorY (rest.andThen afterBranch).point →
      Serial (glyph c s) (glyph k s) (kind c) (kind k) ⟨s.videoMemory, s.cursorX, s.cursorY⟩
        (R s.videoMemory).wrap.scroll)
    (hrisk : (glyph c s).toNat < 256 → (glyph k s).toNat < 256 →
      Serial (glyph c s) (glyph k s) (kind c) (kind k) ⟨paint, s.cursorX, s.cursorY⟩
        (R paint).wrap.scroll →
      Safe (kind c) (kind k) s.cursorX s.cursorY (rest.andThen afterBranch).point) :
    Verdict c k s (rest.andThen afterBranch) t := by
  have hrow' : (rest.run (vgaPutc t k)).cursorY < 255 := by
    rwa [← screen_y, hscreen]
  refine verdict_of_moveCursor (R := fun v => (R v).wrap.scroll) hs (run_andThen_afterBranch _ _) ?_
    ⟨(scroll_x _).symm ▸ wrap_x_lt _, scroll_y_lt _⟩ ?_ ?_
  · rw [screen_scroll, screen_wrapLine hrow', hscreen]
  · rw [onScreen_scroll, onScreen_wrapLine]
    exact fun h => ⟨hlog, hsafe h⟩
  · exact fun hgc hgk _ => hrisk hgc hgk

section Branch

variable {rest : Thread Point Vga}

/-- Before the branch has looked at the cursor the handler simply goes first. -/
theorem verdict_early (hs : s.screen.Valid) (hlog : s.OnScreen)
    (hrun : ∀ u : Vga, u.attributeByte = s.attributeByte → rest.run u = putcBranch c u)
    (hsafe : Safe (kind c) (kind k) s.cursorX s.cursorY (rest.andThen afterBranch).point) :
    Verdict c k s (rest.andThen afterBranch) s := by
  obtain ⟨hput, hvalid, hlogged⟩ := (stage_start hlog).putc_valid hs k
  have hx : (vgaPutc s k).cursorX < 80 := hvalid.1
  have hy : (vgaPutc s k).cursorY < 25 := hvalid.2
  have hbranch := screen_putcBranch (s := vgaPutc s k) (by omega) (by omega) c
  rw [glyph_congr (attributeByte_vgaPutc s k), hput] at hbranch
  have hrow := branch_y_le (glyph c s) (kind c) (s.screen.put (glyph k s) (kind k))
  have hrun := hrun _ (attributeByte_vgaPutc s k)
  refine verdict_of_branch
    (R := fun v => branch (glyph c s) (kind c)
      (put (glyph k s) (kind k) ⟨v, s.cursorX, s.cursorY⟩)) hs ?_ ?_ ?_ ?_ fun _ _ _ => hsafe
  · rw [hrun, hbranch]
  · have hlow := scroll_y_lt (s.screen.branch (glyph k s) (kind k)).wrap
    exact Nat.lt_of_le_of_lt hrow (by rw [put]; omega)
  · rw [hrun]
    exact (onScreen_putcBranch _ c).mpr ⟨fun _ => by omega, hlogged⟩
  · exact fun _ => .inr (.of_eq rfl)

/-- A character that does nothing where the cursor is. -/
theorem verdict_idle (hs : s.screen.Valid) (hlog : s.OnScreen) (hrun : ∀ u : Vga, rest.run u = u)
    (hidle : ∀ v, branch (glyph c s) (kind c) ⟨v, s.cursorX, s.cursorY⟩ = ⟨v, s.cursorX, s.cursorY⟩)
    (hsafe : Safe (kind c) (kind k) s.cursorX s.cursorY (rest.andThen afterBranch).point) :
    Verdict c k s (rest.andThen afterBranch) s := by
  obtain ⟨hput, hvalid, hlogged⟩ := (stage_start hlog).putc_valid hs k
  refine verdict_of_branch (R := fun v => put (glyph k s) (kind k) ⟨v, s.cursorX, s.cursorY⟩) hs ?_
    (Nat.lt_trans (put_valid _ _ _).2 (by omega)) ?_ ?_ fun _ _ _ => hsafe
  · rw [hrun]
    exact hput
  · rwa [hrun]
  · intro _
    left
    apply Same.of_eq
    have hstay : put (glyph c s) (kind c) ⟨s.videoMemory, s.cursorX, s.cursorY⟩
        = ⟨s.videoMemory, s.cursorX, s.cursorY⟩ := put_idle _ hs (hidle _)
    rw [settled (put_valid _ _ _), hstay]

theorem verdict_decX (hs : s.screen.Valid) (hlog : s.OnScreen) (hc : kind c = .backspace)
    (hpos : s.cursorX ≠ 0) :
    Verdict c k s ((statement .decX fun s => s.setCursorX (s.cursorX - 1)).andThen afterBranch)
      s := by
  obtain ⟨hput, hvalid, hlogged⟩ := (stage_start hlog).putc_valid hs k
  refine verdict_of_branch (R := fun v => (put (glyph k s) (kind k) ⟨v, s.cursorX, s.cursorY⟩).decX)
    hs ((screen_decX _).trans (congrArg decX hput))
    (Nat.lt_trans (put_valid _ _ _).2 (by omega)) ((onScreen_setCursorX _ _).mpr hlogged) ?_ ?_
  · rw [hc]
    exact decX_serial
  · rw [hc]
    exact fun _ hgk hserial hhome => decX_not_serial hgk hs.1 hpos hs.2 hhome hserial

theorem verdict_newlineY (hs : s.screen.Valid) (hlog : s.OnScreen) (hc : kind c = .newline) :
    Verdict c k s ((statement .newlineY fun s => s.setCursorY (s.cursorY + 1)).andThen afterBranch)
      (s.setCursorX 0) := by
  have hstage : Stage s (s.setCursorX 0) fun v => ⟨v, 0, s.cursorY⟩ :=
    ⟨rfl, (onScreen_setCursorX _ _).mpr hlog, rfl⟩
  obtain ⟨hput, hvalid, hlogged⟩ := hstage.putc_valid ⟨Nat.zero_lt_succ 79, hs.2⟩ k
  have hrow : (vgaPutc (s.setCursorX 0) k).cursorY < 25 := hvalid.2
  have hwrap (v : Nat → Cell) : (put (glyph k s) (kind k) ⟨v, 0, s.cursorY⟩).incY.wrap
      = (put (glyph k s) (kind k) ⟨v, 0, s.cursorY⟩).incY :=
    wrap_lt _ (put_valid _ _ _).1
  refine verdict_of_branch (R := fun v => (put (glyph k s) (kind k) ⟨v, 0, s.cursorY⟩).incY) hs
    ((screen_incY (by omega)).trans (congrArg incY hput))
    (Nat.lt_trans (Nat.succ_lt_succ (put_valid _ _ _).2) (by omega))
    ((onScreen_setCursorY _ _).mpr hlogged) ?_ ?_
  · rw [hc, hwrap]
    exact fun hsafe => .inl (.of_eq (incY_put hs.2 hsafe))
  · rw [hc, hwrap]
    intro hgc hgk hserial hk
    rw [hk] at hserial
    exact incY_not_serial hgc hgk hs.1 hs.2 (.inl rfl) hserial

theorem verdict_store (hs : s.screen.Valid) (hlog : s.OnScreen) (hc : kind c = .printable) :
    Verdict c k s ((step .store (storeCell (s.cursorY * 80 + s.cursorX) (glyph c s)) fun _ =>
      statement .incX fun s => s.setCursorX (s.cursorX + 1)).andThen afterBranch) s := by
  obtain ⟨hput, hvalid, hlogged⟩ := (stage_start hlog).putc_valid hs k
  have hx : s.cursorX < 80 := hs.1
  have hy : s.cursorY < 25 := hs.2
  have hlow : (vgaPutc s k).cursorX < 255 := Nat.lt_trans hvalid.1 (by omega)
  refine verdict_of_branch (R := fun v => ((put (glyph k s) (kind k) ⟨v, s.cursorX, s.cursorY⟩).store
      (s.cursorY * 80 + s.cursorX) (glyph c s)).incX) hs ?_
    (Nat.lt_trans (put_valid _ _ _).2 (by omega)) ?_ ?_ ?_
  · have hstore := screen_store (vgaPutc s k) (s.cursorY * 80 + s.cursorX) (glyph c s)
    rw [hput] at hstore
    exact (screen_incX (s := storeCell _ _ (vgaPutc s k)) hlow).trans (congrArg incX hstore)
  · exact (onScreen_setCursorX _ _).mpr ((onScreen_storeCell _ _ _).mpr ⟨by omega, hlogged⟩)
  · rw [hc]
    exact store_serial hx hy
  · rw [hc]
    exact fun hgc hgk hserial => of_not_not fun hrisk =>
      store_not_serial hgc hgk hx hy (.inl rfl) hrisk hserial

theorem verdict_incX (hs : s.screen.Valid) (hlog : s.OnScreen) (hc : kind c = .printable) :
    Verdict c k s ((statement .incX fun s => s.setCursorX (s.cursorX + 1)).andThen afterBranch)
      (s.storeCell (s.cursorY * 80 + s.cursorX) (glyph c s)) := by
  have hx : s.cursorX < 80 := hs.1
  have hy : s.cursorY < 25 := hs.2
  have hstage : Stage s (s.storeCell (s.cursorY * 80 + s.cursorX) (glyph c s)) fun v =>
      Screen.store (s.cursorY * 80 + s.cursorX) (glyph c s) ⟨v, s.cursorX, s.cursorY⟩ :=
    ⟨rfl, (onScreen_storeCell _ _ _).mpr ⟨by omega, hlog⟩, rfl⟩
  obtain ⟨hput, hvalid, hlogged⟩ := hstage.putc_valid hs k
  have hlow := hvalid.1
  refine verdict_of_branch (R := fun v => (put (glyph k s) (kind k)
      (Screen.store (s.cursorY * 80 + s.cursorX) (glyph c s) ⟨v, s.cursorX, s.cursorY⟩)).incX) hs
    ((screen_incX (Nat.lt_trans hlow (by omega))).trans (congrArg incX hput))
    (Nat.lt_trans (put_valid _ _ _).2 (by omega)) ((onScreen_setCursorX _ _).mpr hlogged) ?_ ?_
  · rw [hc]
    exact incX_serial hx hy
  · rw [hc]
    exact fun hgc hgk hserial => of_not_not fun hrisk =>
      incX_not_serial hgc hgk hx hy hrisk hserial

/-- Once the test for a backspace has failed, a backspace does nothing more, wherever the cursor has
gone meanwhile. -/
theorem verdict_tested (hs : s.screen.Valid) (hlog : s.OnScreen)
    (hback : ¬ (c = 0x08 ∧ s.cursorX ≠ 0))
    (hidle : c = 0x08 → ∀ u : Vga, rest.run u = u)
    (hrun : c ≠ 0x08 → ∀ u : Vga, u.attributeByte = s.attributeByte → rest.run u = putcBranch c u)
    (hsafe : Safe (kind c) (kind k) s.cursorX s.cursorY (rest.andThen afterBranch).point) :
    Verdict c k s (rest.andThen afterBranch) s := by
  by_cases hc : c = 0x08
  · have hzero : s.cursorX = 0 := of_not_not fun hpos => hback ⟨hc, hpos⟩
    refine verdict_idle hs hlog (hidle hc) (fun v => ?_) hsafe
    rw [hzero, hc]
    rfl
  · exact verdict_early hs hlog (hrun hc) hsafe

theorem inside_characterThread (hs : s.screen.Valid) (hlog : s.OnScreen) (c k : Byte) :
    Inside (fun rest t => Verdict c k s (rest.andThen afterBranch) t) (characterThread c) s := by
  refine ⟨verdict_early hs hlog (fun u _ => run_characterThread c u) trivial,
    verdict_early hs hlog (fun u hu => run_branchThread hu c) trivial, ?_⟩
  have hbranch (u : Vga) (hu : u.attributeByte = s.attributeByte) := run_branchThread hu c
  simp only [branchThread, run_test] at hbranch
  refine inside_test (verdict_early hs hlog (fun u hu => run_branchThread hu c) trivial) ?_
    fun hback => inside_test (verdict_tested hs hlog hback ?_ ?_ trivial) ?_
    fun htab => inside_test (verdict_tested hs hlog hback ?_ ?_ trivial) ?_
    fun hreturn => inside_test (verdict_tested hs hlog hback ?_ ?_ trivial) ?_
    fun hnewline => inside_test (verdict_tested hs hlog hback ?_ ?_ trivial) ?_ fun _ => trivial
  · intro hfound
    obtain ⟨rfl, hpos⟩ := hfound
    exact inside_statement (verdict_decX hs hlog rfl hpos)
  · intro hc u
    subst hc
    rfl
  · intro hc u hu
    simpa only [run_test, hc, false_and, if_false] using hbranch u hu
  · intro hc
    subst hc
    exact inside_statement (verdict_early hs hlog (fun u _ => rfl) trivial)
  · intro hc u
    subst hc
    rfl
  · intro hc u hu
    simpa only [run_test, hc, htab, false_and, if_false] using hbranch u hu
  · intro hc
    subst hc
    exact inside_statement (verdict_early hs hlog (fun u _ => rfl) trivial)
  · intro hc u
    subst hc
    rfl
  · intro hc u hu
    simpa only [run_test, hc, htab, hreturn, false_and, if_false] using hbranch u hu
  · intro hc
    subst hc
    exact ⟨verdict_early hs hlog (fun u _ => rfl) trivial,
      inside_statement (verdict_newlineY hs hlog rfl)⟩
  · intro hc u
    subst hc
    rfl
  · intro hc u hu
    simpa only [run_test, hc, htab, hreturn, hnewline, false_and, if_false] using hbranch u hu
  · intro hprint
    have hc := kind_printable hprint
    refine ⟨verdict_early hs hlog (fun u hu => ?_) trivial, verdict_store hs hlog hc,
      inside_statement (verdict_incX hs hlog hc)⟩
    refine (run_printThread c s u).trans ?_
    rw [putcBranch_printable u hprint, glyph_congr hu]

end Branch
end Brunix
