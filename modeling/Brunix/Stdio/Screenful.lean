import Brunix.Basis.Rows
import Brunix.Console.Refinement
import Brunix.Stdio.Printk

/-!
# What is on the screen

A text without tabs, returns and backspaces lies on the terminal as its rows of 80 characters, from
the position where it begins. So what the screen shows of a printed text is the last 25 of its rows,
with the cursor behind the last one.
-/

namespace Brunix

open Basis

/-- Nothing but newlines and characters that are printed. -/
def Plain (text : List Byte) : Prop := ∀ c ∈ text, c = 0x0A ∨ 0x20 ≤ c

instance : DecidablePred Plain := fun _ => List.decidableBAll _ _

structure Terminal.Fresh (t : Terminal) : Prop where
  col : t.col = 0
  blank : ∀ x, t.cells t.row x = 0x0F20

/-- The cell of an entry, blank where the row does not reach. -/
def Terminal.shown (t : Terminal) (entry : Option Byte) : Cell := (entry.map t.cellOf).getD 0x0F20

/-- `t'` is `t` with rows of text laid from its row on, and stands behind the last one. -/
structure Laid (t : Terminal) (rows : List (List Byte)) (t' : Terminal) : Prop where
  row : t'.row + 1 = t.row + rows.length
  col : t'.col = openColumn rows
  backColour : t'.backColour = t.backColour
  foreColour : t'.foreColour = t.foreColour
  cells : ∀ r x, x < 80 →
    t'.cells r x = if r < t.row then t.cells r x else t.shown (entryAt rows (r - t.row) x)

section Laid

variable {t t' t'' : Terminal} {rows rows' : List (List Byte)}

theorem Laid.cellOf (h : Laid t rows t') : t'.cellOf = t.cellOf := by
  funext c
  rw [Terminal.cellOf, Terminal.cellOf, h.backColour, h.foreColour]

theorem Terminal.putc_next (t : Terminal) {c : Byte} (hc : 0x20 ≤ c) :
    (t.putc c).row = t.row + (t.col + 1) / 80 ∧ (t.putc c).col = (t.col + 1) % 80
      ∧ (t.putc c).backColour = t.backColour ∧ (t.putc c).foreColour = t.foreColour
      ∧ (t.putc c).cells
        = fun r x => if r = t.row ∧ x = t.col then t.cellOf c else t.cells r x := by
  have hcol := t.col_lt
  rw [t.putc_printable hc]
  by_cases hnext : t.col + 1 < 80
  · simp only [moveTo, dif_pos hnext]
    refine ⟨?_, ?_, rfl, rfl, rfl⟩
    · omega
    · omega
  · simp only [moveTo, dif_neg hnext]
    refine ⟨?_, ?_, rfl, rfl, rfl⟩
    · omega
    · omega

theorem laid_line (hfresh : t.Fresh) (line : List Byte) (hprint : ∀ c ∈ line, 0x20 ≤ c) :
    Laid t (rowsOf 80 line) (line.foldl Terminal.putc t) := by
  induction line using List.reverseRecOn with
  | nil =>
      refine ⟨rfl, hfresh.col, rfl, rfl, fun r x hx => ?_⟩
      rw [List.foldl_nil, entryAt_rowsOf hx]
      split
      · rfl
      · next hr =>
          obtain hrow | hrow := Nat.eq_or_lt_of_le (Nat.le_of_not_lt hr)
          · rw [← hrow]
            exact hfresh.blank x
          · exact t.blank_below r x hrow
  | append_singleton line c ih =>
      have h := ih fun b hb => hprint b (List.mem_append_left _ hb)
      have hc : 0x20 ≤ c := hprint c (by simp)
      rw [List.foldl_concat]
      generalize line.foldl Terminal.putc t = t' at h
      have hrow := h.row
      have hcol := h.col
      rw [length_rowsOf] at hrow
      rw [openColumn_rowsOf (by decide)] at hcol
      obtain ⟨hrow', hcol', hback, hfore, hcells⟩ := t'.putc_next hc
      refine ⟨?_, ?_, hback.trans h.backColour, hfore.trans h.foreColour, fun r x hx => ?_⟩
      · rw [hrow', length_rowsOf, List.length_append, List.length_singleton]
        omega
      · rw [hcol', openColumn_rowsOf (by decide), List.length_append, List.length_singleton]
        omega
      · simp only [hcells, h.cells r x hx, h.cellOf, entryAt_rowsOf hx]
        -- the character goes where the line ends
        by_cases hr : r < t.row
        · rw [if_neg (by omega), if_pos hr, if_pos hr]
        · rw [if_neg hr, if_neg hr, Terminal.shown, Terminal.shown]
          by_cases hhere : (r - t.row) * 80 + x = line.length
          · rw [if_pos (by omega), hhere, List.getElem?_concat_length]
            rfl
          · rw [if_neg (by omega), List.getElem?_append]
            split
            · rfl
            · rw [List.getElem?_eq_none (by omega), List.getElem?_eq_none]
              rw [List.length_singleton]
              omega

/-- No row has been reached that a newline leads to. -/
theorem Terminal.newline_fresh (t : Terminal) : (t.putc 0x0A).Fresh :=
  ⟨rfl, fun x => t.blank_below _ x (Nat.lt_succ_self _)⟩

theorem Laid.append (h : Laid t rows t') (hrows' : rows' ≠ [])
    (h' : Laid (t'.putc 0x0A) rows' t'') : Laid t (rows ++ rows') t'' := by
  have hrow : (t'.putc 0x0A).row = t'.row + 1 := rfl
  have hlaid := h.row
  have hlaid' := h'.row
  have hcellOf : (t'.putc 0x0A).cellOf = t'.cellOf := rfl
  refine ⟨?_, ?_, h'.backColour.trans h.backColour, h'.foreColour.trans h.foreColour,
    fun r x hx => ?_⟩
  · rw [List.length_append]
    omega
  · rw [h'.col, openColumn_append rows hrows']
  · have hcells : (t'.putc 0x0A).cells = t'.cells := rfl
    rw [h'.cells r x hx, hcells, h.cells r x hx, entryAt_append, hrow, h.row]
    by_cases hr : r < t.row
    · rw [if_pos (by omega), if_pos hr, if_pos hr]
    · rw [if_neg hr, if_neg hr]
      by_cases hfirst : r < t.row + rows.length
      · rw [if_pos hfirst, if_pos (by omega)]
      · rw [if_neg hfirst, if_neg (by omega), Nat.sub_add_eq, Terminal.shown, Terminal.shown,
          hcellOf, h.cellOf]

theorem laid_text (hfresh : t.Fresh) {text : List Byte} (hplain : Plain text) :
    Laid t (wrapped 80 0x0A text) (text.foldl Terminal.putc t) := by
  induction text using lines_induction (0x0A : Byte) generalizing t with
  | line line hline =>
      rw [wrapped_line 80 hline]
      exact laid_line hfresh line fun c hc =>
        (hplain c hc).resolve_left fun heq => hline (heq ▸ hc)
  | more line rest hline ih =>
      have hprint : ∀ c ∈ line, 0x20 ≤ c := fun c hc =>
        (hplain c (List.mem_append_left _ hc)).resolve_left fun heq => hline (heq ▸ hc)
      have hrest : Plain rest := fun c hc =>
        hplain c (List.mem_append_right _ (List.mem_cons_of_mem _ hc))
      have hlaid := laid_line hfresh line hprint
      rw [wrapped_cons 80 hline, List.foldl_append, List.foldl_cons]
      exact hlaid.append (wrapped_ne_nil 80 0x0A rest)
        (ih (Terminal.newline_fresh _) hrest)

end Laid

/-! ### The screen -/

/-- The last 25 rows of a text are what a console shows of it, and its cursor is behind the last. -/
structure ShowsText (s : Vga) (backColour foreColour : Byte) (text : List Byte) : Prop where
  cells : ∀ y < 25, ∀ x < 80, s.videoMemory (80 * y + x)
    = (Terminal.empty backColour foreColour).shown
      (entryAt ((wrapped 80 0x0A text).rtake 25) y x)
  cursorX : s.cursorX = openColumn (wrapped 80 0x0A text)
  cursorY : s.cursorY + 1 = min 25 (wrapped 80 0x0A text).length

theorem Shows.text {s : Vga} {backColour foreColour : Byte} {text : List Byte}
    (hplain : Plain text)
    (h : Shows s (text.foldl Terminal.putc (.empty backColour foreColour))) :
    ShowsText s backColour foreColour text := by
  have hlaid := laid_text (t := .empty backColour foreColour) ⟨rfl, fun _ => rfl⟩ hplain
  generalize text.foldl Terminal.putc (.empty backColour foreColour) = t at h hlaid
  have hrow := hlaid.row
  rw [Terminal.empty_row, Nat.zero_add] at hrow
  have htop : t.top = (wrapped 80 0x0A text).length - 25 := by
    rw [Terminal.top]
    omega
  refine ⟨fun y hy x hx => ?_, h.cursorX.trans hlaid.col, ?_⟩
  · rw [h.mirrors y hy x hx, hlaid.cells _ x hx, Terminal.empty_row, if_neg (Nat.not_lt_zero _),
      Nat.sub_zero, entryAt_rtake, htop]
  · rw [h.cursorY, htop]
    omega

/-- On a cleared console, whatever it was before, the screen shows the last 25 rows of what the format
expands to. -/
theorem printk_screen {strAt : Word → Buffer} {fmt : List Byte} {buffer : Buffer}
    (hfmt : buffer.Holds fmt) {params : List Word} (hargs : ArgsFit strAt fmt params)
    (hplain : Plain (expand strAt fmt params)) (s : Vga) :
    ∃ s', printk vgaPutc strAt buffer params (vgaClear s) = some s'
      ∧ ShowsText s' s.backColour s.foreColour (expand strAt fmt params) := by
  refine ⟨_, printk_spec vgaPutc strAt hfmt hargs _, Shows.text hplain ?_⟩
  exact List.foldl_rel (vgaClear_shows rfl rfl) fun c _ _ _ h => vgaPutc_shows h c

theorem printk_screen_letter :
    ∃ s, printk vgaPutc (fun _ => []) (literal "%c\n") [65] (vgaClear (.boot (fun _ => 0) ⟨0, fun _ => 0⟩))
        = some s
      ∧ s.videoMemory 0 = 0x0F41 ∧ s.cursorY = 1 := by
  have hfmt : (literal "%c\n").Holds (asciiBytes "%c\n") := ⟨by decide, [], rfl⟩
  have hargs : ArgsFit (fun _ => []) (asciiBytes "%c\n") [65] := ⟨by decide, fun _ hpair hop => by
    rw [List.mem_singleton.mp hpair] at hop
    exact absurd hop (by decide)⟩
  have htext : expand (fun _ => []) (asciiBytes "%c\n") [65] = [65, 0x0A] := by decide
  obtain ⟨s, hrun, hshows⟩ := printk_screen hfmt hargs (htext ▸ by decide)
    (.boot (fun _ => 0) ⟨0, fun _ => 0⟩)
  rw [htext] at hshows
  refine ⟨s, hrun, hshows.cells 0 (by decide) 0 (by decide), ?_⟩
  exact Nat.succ_injective hshows.cursorY

end Brunix
