import Brunix.Console.ScrollVerdicts

/-!
# Every interruption of `vga_putc`

The last statements set the hardware cursor. With them every statement has its verdict, and the safe
interruptions are all that there are.
-/

namespace Brunix

open Vga Basis Thread Screen

variable {c k : Byte} {s t w : Vga}

/-! ### Interrupted while the hardware cursor is set

The handler leaves the controller with the low byte selected. What the interrupted `move_cursor` still
sends is the location before the handler's character, or its low byte only. -/

/-- The low byte of a location is sent, the high byte is the one already there. -/
theorem low_byte_location (crtc : Crtc) (h : crtc.index = fbLowByteCommand) (value : Byte) :
    (crtc.outb fbDataPort value).location
      = crtc.location / 256 * 256 + value.toNat := by
  have hlow := (crtc.regs fbLowByteCommand).isLt
  have hhigh : (crtc.outb fbDataPort value).location
      = (crtc.regs fbHighByteCommand).toNat * 256 + value.toNat := by
    rw [Crtc.outb, if_neg (by decide), if_pos rfl, h]
    rfl
  rw [hhigh, Crtc.location]
  omega

/-- A location sent too late is right only if the cursor is still there: at most a row away, it cannot
have the same low byte by chance. -/
theorem late_location_iff {x y x' y' location : Nat} (hx : x < 80) (hx' : x' < 80)
    (hnear : y' * 80 + x' ≤ y * 80 + x + 80 ∧ y * 80 + x ≤ y' * 80 + x' + 80)
    (h : location = y * 80 + x
      ∨ location = (y' * 80 + x') / 256 * 256 + (y * 80 + x) % 256) :
    location = y' * 80 + x' ↔ x' = x ∧ y' = y := by
  omega

section Out

variable (hs : s.screen.Valid)
include hs

theorem stage_scroll (hlog : s.OnScreen) (c : Byte) :
    Stage s (scroll (wrapLine (putcBranch c s)))
      (fun v => put (glyph c s) (kind c) ⟨v, s.cursorX, s.cursorY⟩) := by
  have hstage := stage_wrapLine hs hlog c
  refine ⟨?_, (onScreen_scroll _).mpr hstage.onScreen,
    (attributeByte_scroll _).trans hstage.attributeByte_eq⟩
  rw [screen_scroll, hstage.screen_eq, put]

theorem verdict_cursorLocation (hlog : s.OnScreen) (c k : Byte) :
    Verdict c k s moveCursorThread (scroll (wrapLine (putcBranch c s))) := by
  obtain ⟨hput, hvalid, hlogged⟩ := (stage_scroll hs hlog c).putc_valid (put_valid _ _ _) k
  exact verdict_of_moveCursor (R := fun v => put (glyph k s) (kind k)
    (put (glyph c s) (kind c) ⟨v, s.cursorX, s.cursorY⟩)) hs (run_moveCursorThread _) hput
    (put_valid _ _ _) (fun _ => ⟨hlogged, .inl (.of_eq rfl)⟩) fun _ _ _ _ => trivial

/-- After the interrupted character the variables are those of putting `k` second, and only the
hardware cursor can be wrong. -/
theorem serialised_iff_location (c k : Byte) (hlogged : w.OnScreen)
    (hscreen : w.screen = (s.screen.put (glyph c s) (kind c)).put (glyph k s) (kind k)) :
    Serialised c k s w ↔ w.crtc.location = w.cursorY * 80 + w.cursorX := by
  have hlocation := vgaPutc_vgaPutc_location hs
  constructor
  · intro hserial
    rcases hserial.2 with h | h
    · rw [h.location, h.cursorX, h.cursorY, hlocation c k]
    · rw [h.location, h.cursorX, h.cursorY, hlocation k c]
  · intro h
    refine ⟨hlogged, .inl ((agrees_iff_same h (hlocation c k)).mpr (.of_eq ?_))⟩
    rw [hscreen, screen_vgaPutc_vgaPutc hs]

theorem verdict_out {rest : Thread Point Vga} (c k : Byte) (L : Nat)
    (hL : L = (kind c).row s.cursorX s.cursorY * 80 + (kind c).column s.cursorX)
    (ht : Stage s t fun v => put (glyph c s) (kind c) ⟨v, s.cursorX, s.cursorY⟩)
    (hrun : ∀ u : Vga, u.crtc.index = fbLowByteCommand → (rest.run u).screen = u.screen
      ∧ (rest.run u).accesses = u.accesses
      ∧ ((rest.run u).crtc.location = L
        ∨ (rest.run u).crtc.location = u.crtc.location / 256 * 256 + L % 256))
    (hpoint : Safe (kind c) (kind k) s.cursorX s.cursorY rest.point ↔
      (kind k).column ((kind c).column s.cursorX) = (kind c).column s.cursorX
      ∧ (kind k).row ((kind c).column s.cursorX) ((kind c).row s.cursorX s.cursorY)
        = (kind c).row s.cursorX s.cursorY) :
    Verdict c k s rest t := by
  have hcursor := put_valid (glyph c s) (kind c) s.screen
  have hx : (s.screen.put (glyph c s) (kind c)).x = (kind c).column s.cursorX := put_x _ _ _
  have hy : (s.screen.put (glyph c s) (kind c)).y = (kind c).row s.cursorX s.cursorY :=
    put_y _ _ hs.2
  obtain ⟨hput, hvalid, hlogged⟩ := ht.putc_valid hcursor k
  obtain ⟨hscreen, haccesses, hsent⟩ := hrun (vgaPutc t k) rfl
  have hfinal : (rest.run (vgaPutc t k)).screen
      = (s.screen.put (glyph c s) (kind c)).put (glyph k s) (kind k) := hscreen.trans hput
  have hon : (rest.run (vgaPutc t k)).OnScreen := by
    rwa [Vga.OnScreen, haccesses]
  have hx' : (rest.run (vgaPutc t k)).cursorX = (kind k).column ((kind c).column s.cursorX) := by
    rw [← screen_x, hfinal, put_x, hx]
  have hy' : (rest.run (vgaPutc t k)).cursorY
      = (kind k).row ((kind c).column s.cursorX) ((kind c).row s.cursorX s.cursorY) := by
    rw [← screen_y, hfinal, put_y _ _ hcursor.2, hx, hy]
  have hcol' : (rest.run (vgaPutc t k)).cursorX < 80 := by
    rw [← screen_x, hfinal]
    exact (put_valid _ _ _).1
  rw [vgaPutc_location hvalid, ← screen_x, ← screen_y, ← hscreen, screen_x, screen_y, hx', hy',
    hL] at hsent
  rw [hx'] at hcol'
  have hcol : (kind c).column s.cursorX < 80 := hx ▸ hcursor.1
  have hnear := (kind k).moves_near hcol (hy ▸ hcursor.2)
  rw [Verdict, hpoint, serialised_iff_location hs c k hon hfinal, hx', hy',
    late_location_iff hcol hcol' hnear hsent]
  exact ⟨id, fun _ => id⟩

theorem inside_outThread (c k : Byte) {location : BitVec 16}
    (hlocation : location.toNat
      = (kind c).row s.cursorX s.cursorY * 80 + (kind c).column s.cursorX)
    (ht : Stage s t fun v => put (glyph c s) (kind c) ⟨v, s.cursorX, s.cursorY⟩) :
    Inside (Verdict c k s) (outThread location) t := by
  have hlow : (location.setWidth 8).toNat = location.toNat % 256 := BitVec.toNat_setWidth _ _
  -- What a call of `outb` changes is not part of the stage.
  have hport {port : BitVec 16} {value : Byte} {t : Vga}
      (ht : Stage s t fun v => put (glyph c s) (kind c) ⟨v, s.cursorX, s.cursorY⟩) :
      Stage s (outb port value t) fun v => put (glyph c s) (kind c) ⟨v, s.cursorX, s.cursorY⟩ :=
    ⟨ht.screen_eq, ht.onScreen, ht.attributeByte_eq⟩
  refine ⟨verdict_out hs c k _ hlocation ht (fun u _ => ⟨rfl, rfl, .inl ?_⟩) Iff.rfl,
    verdict_out hs c k _ hlocation (hport ht) (fun u hu => ⟨rfl, rfl, .inr ?_⟩) Iff.rfl,
    verdict_out hs c k _ hlocation (hport (hport ht)) (fun u _ => ⟨rfl, rfl, .inr ?_⟩) Iff.rfl,
    verdict_out hs c k _ hlocation (hport (hport (hport ht))) (fun u hu => ⟨rfl, rfl, .inr ?_⟩)
      Iff.rfl, trivial⟩
  · exact bytes_of_location location
  · -- The high byte arrives while the low one is selected, and the low byte overwrites it.
    have hhigh := low_byte_location _ hu ((location >>> 8).setWidth 8)
    have hbyte := ((location >>> 8).setWidth 8 : Byte).isLt
    have hfinal := low_byte_location ((u.crtc.outb fbDataPort
      ((location >>> 8).setWidth 8)).outb fbCommandPort fbLowByteCommand) rfl (location.setWidth 8)
    change _ = (u.crtc.outb fbDataPort ((location >>> 8).setWidth 8)).location / 256 * 256 + _
      at hfinal
    rw [hhigh, hlow] at hfinal
    refine hfinal.trans ?_
    omega
  · rw [← hlow]
    exact low_byte_location (u.crtc.outb fbCommandPort fbLowByteCommand) rfl _
  · rw [← hlow]
    exact low_byte_location _ hu _

theorem inside_moveCursorThread (hlog : s.OnScreen) (c k : Byte) :
    Inside (Verdict c k s) moveCursorThread (scroll (wrapLine (putcBranch c s))) := by
  have hstage := stage_scroll hs hlog c
  refine ⟨verdict_cursorLocation hs hlog c k, inside_outThread hs c k ?_
    ⟨hstage.screen_eq, (onScreen_setCursorLocation _).mpr hstage.onScreen, hstage.attributeByte_eq⟩⟩
  generalize scroll (wrapLine (putcBranch c s)) = m at hstage
  have hx : m.cursorX = (kind c).column s.cursorX := by
    rw [← screen_x, hstage.screen_eq, put_x]
  have hy : m.cursorY = (kind c).row s.cursorX s.cursorY := by
    rw [← screen_y, hstage.screen_eq]
    exact put_y _ _ hs.2
  have hvalid : m.screen.Valid := by
    rw [hstage.screen_eq]
    exact put_valid _ _ _
  have hcol : m.cursorX < 80 := hvalid.1
  have hrow : m.cursorY < 25 := hvalid.2
  rw [cursorLocation, BitVec.toNat_ofNat, Nat.mod_eq_of_lt (by omega), hx, hy]

end Out

/-! ### All statements together -/

theorem verdict_done (hs : s.screen.Valid) (hlog : s.OnScreen) (c k : Byte) :
    Verdict c k s done (vgaPutc s c) := by
  obtain ⟨-, hvalid, hlogged⟩ := (stage_start hlog).putc_valid hs c
  obtain ⟨-, -, hlogged'⟩ := (stage_start hlogged).putc_valid hvalid k
  refine ⟨fun _ => ⟨hlogged', .inl ⟨fun _ _ => rfl, rfl, rfl, rfl⟩⟩, fun _ _ => trivial⟩

theorem inside_vgaPutcThread (hs : s.screen.Valid) (hlog : s.OnScreen) (c k : Byte) :
    Inside (Verdict c k s) (vgaPutcThread c) s := by
  apply inside_andThen (inside_characterThread hs hlog c k)
  rw [run_characterThread]
  apply inside_andThen (inside_wrapThread hs hlog c k)
  rw [run_wrapThread]
  apply inside_andThen (inside_scrollThread hs hlog c k)
  rw [run_scrollThread]
  exact inside_moveCursorThread hs hlog c k

theorem verdict_after (hs : s.screen.Valid) (hlog : s.OnScreen) (c k : Byte) (n : Nat) :
    Verdict c k s (after n (vgaPutcThread c) s).1 (after n (vgaPutcThread c) s).2 := by
  refine after_of_inside (inside_vgaPutcThread hs hlog c k) ?_ n
  rw [run_vgaPutcThread]
  exact verdict_done hs hlog c k

/-- A painted console with the cursor at a given place, in colours that leave a glyph its low byte. -/
def paintedAt (x y : Nat) : Vga where
  videoMemory := paint
  cursorX := x
  cursorY := y
  backColour := 0
  foreColour := 0
  crtc := ⟨0, fun _ => 0⟩
  accesses := []

theorem painted_paintedAt (c k : Byte) (x y : Nat) : Painted c k (paintedAt x y) := by
  have hglyph (c : Byte) : (glyph c (paintedAt x y)).toNat < 256 := by
    have hattribute : (paintedAt x y).attributeByte = 0 := (by decide : (0 <<< 4 ||| 0 &&& 0x0F) = (0 : Byte))
    rw [glyph, hattribute, show ((0 : Byte).setWidth 16 <<< 8 : Cell) = 0#16 by decide,
      BitVec.or_zero, BitVec.toNat_setWidth]
    have := c.isLt
    omega
  exact ⟨rfl, hglyph c, hglyph k⟩

/-- `vga_putc(c)` is interrupted after `n` statements by a handler that prints `k`. Whatever the screen
shows, no access leaves it and the outcome is that of the two calls in one order or the other, exactly
if the interruption is a safe one. -/
theorem preemptedPutc_serialised_iff (s : Vga) (hx : s.cursorX < 80) (hy : s.cursorY < 25)
    (c k : Byte) (n : Nat) :
    (∀ s', SameCursor s s' → s'.accesses = [] → Serialised c k s' (preemptedPutc c k n s')) ↔
      Safe (kind c) (kind k) s.cursorX s.cursorY (after n (vgaPutcThread c) s).1.point := by
  constructor
  · intro h
    have hcursor : SameCursor s (paintedAt s.cursorX s.cursorY) := ⟨rfl, rfl⟩
    have hverdict := verdict_after (s := paintedAt s.cursorX s.cursorY) ⟨hx, hy⟩
      (List.forall_mem_nil _) c k n
    rw [point_after hcursor]
    exact hverdict.2 (painted_paintedAt c k _ _) (h _ hcursor rfl)
  · intro hsafe s' hcursor hlog
    rw [hcursor.1] at hx
    rw [hcursor.2] at hy
    have hclean : s'.OnScreen := by
      rw [Vga.OnScreen, hlog]
      exact List.forall_mem_nil _
    have hverdict := verdict_after ⟨hx, hy⟩ hclean c k n
    rw [point_after hcursor, hcursor.1, hcursor.2] at hsafe
    exact hverdict.1 hsafe

/-- A key that arrives while the line wrap is tested, in the middle of a line. -/
theorem preemptedPutc_serialised_midLine :
    ((paintedAt 5 3).cursorX < 80 ∧ (paintedAt 5 3).cursorY < 25) ∧
      ∀ s', SameCursor (paintedAt 5 3) s' → s'.accesses = [] →
        Serialised 0x41 0x62 s' (preemptedPutc 0x41 0x62 10 s') :=
  ⟨by decide, (preemptedPutc_serialised_iff (paintedAt 5 3) (by decide) (by decide) 0x41 0x62
    10).mpr (by decide)⟩

/-- At the end of the last row the handler finds the cursor past the screen. -/
theorem preemptedPutc_offScreen :
    ¬ ∀ (s : Vga) (c k : Byte) (n : Nat), s.cursorX < 80 → s.cursorY < 25 → s.accesses = [] →
      Serialised c k s (preemptedPutc c k n s) := by
  intro h
  have hfailing := (h (paintedAt 79 24) 0x41 0x62 10 (by decide) (by decide) rfl).1
  have hstate : after 10 (vgaPutcThread 0x41) (paintedAt 79 24)
      = (wrapThread.andThen (scrollThread.andThen moveCursorThread),
        putcBranch 0x41 (paintedAt 79 24)) := rfl
  rw [preemptedPutc, interrupted, hstate] at hfailing
  simp only [run_andThen, run_wrapThread, run_scrollThread, run_moveCursorThread,
    onScreen_moveCursor, onScreen_scroll, onScreen_wrapLine, onScreen_vgaPutc] at hfailing
  exact absurd (hfailing.1 rfl) (by decide)

end Brunix
