import Brunix.Stdio.Strings

/-!
# The terminal the console stands for

A screen without a bottom: rows of 80 cells below one another, all blank at first, and a position
that never moves up. A row below the position has not been reached, so it is blank, and the position
is always on a cell. Both facts are fields of the structure, so that every operation keeps them by
construction. Nothing here scrolls.
-/

namespace Brunix

open Basis

structure Terminal where
  cells : Nat → Nat → Cell
  row : Nat
  col : Nat
  backColour : Byte
  foreColour : Byte
  col_lt : col < 80
  blank_below : ∀ r x, row < r → cells r x = 0x0F20

namespace Terminal

@[simps] def empty (backColour foreColour : Byte) : Terminal where
  cells := fun _ _ => 0x0F20
  row := 0
  col := 0
  backColour := backColour
  foreColour := foreColour
  col_lt := by decide
  blank_below := fun _ _ _ => rfl

/-- Moves to a column of the same or a later row, and to the start of the next row from column 80
on. -/
def moveTo (t : Terminal) (row col : Nat) (hrow : t.row ≤ row) : Terminal :=
  if hcol : col < 80 then
    { t with
      row := row
      col := col
      col_lt := hcol
      blank_below := fun r x hr => t.blank_below r x (by omega) }
  else
    { t with
      row := row + 1
      col := 0
      col_lt := by decide
      blank_below := fun r x hr => t.blank_below r x (by omega) }

/-- The cell of a character: attribute in the high byte, character in the low one. -/
def cellOf (t : Terminal) (c : Byte) : Cell :=
  ((t.backColour <<< 4) ||| (t.foreColour &&& 0xF)) ++ c

@[simps] def store (t : Terminal) (value : Cell) : Terminal :=
  { t with
    cells := fun r x => if r = t.row ∧ x = t.col then value else t.cells r x
    blank_below := fun r x hr => by
      rw [if_neg (by omega)]
      exact t.blank_below r x hr }

def putc (t : Terminal) (c : Byte) : Terminal :=
  if c = 0x08 then (if 0 < t.col then t.moveTo t.row (t.col - 1) (Nat.le_refl _) else t)
  else if c = 0x09 then t.moveTo t.row ((t.col / 8 + 1) * 8) (Nat.le_refl _)
  else if c = 0x0D then t.moveTo t.row 0 (Nat.le_refl _)
  else if c = 0x0A then t.moveTo (t.row + 1) 0 (Nat.le_succ _)
  else if 0x20 ≤ c then (t.store (t.cellOf c)).moveTo t.row (t.col + 1) (Nat.le_refl _)
  else t

def puts (t : Terminal) (str : CString) : Terminal := str.bytes.foldl putc t

def setForegroundColor (t : Terminal) (colour : Byte) : Terminal := { t with foreColour := colour }

/-- Back to the initial state, in the colours at hand. -/
def clear (t : Terminal) : Terminal := empty t.backColour t.foreColour

section Branches

variable (t : Terminal) {c : Byte}

theorem putc_backspace (h : 0 < t.col) :
    t.putc 0x08 = t.moveTo t.row (t.col - 1) (Nat.le_refl _) := if_pos h

theorem putc_backspace_zero (h : t.col = 0) : t.putc 0x08 = t := by
  have hstuck : ¬ 0 < t.col := by omega
  exact if_neg hstuck

theorem putc_tab : t.putc 0x09 = t.moveTo t.row ((t.col / 8 + 1) * 8) (Nat.le_refl _) := rfl

theorem putc_return : t.putc 0x0D = t.moveTo t.row 0 (Nat.le_refl _) := rfl

theorem putc_newline : t.putc 0x0A = t.moveTo (t.row + 1) 0 (Nat.le_succ _) := rfl

theorem putc_printable (h : 0x20 ≤ c) :
    t.putc c = (t.store (t.cellOf c)).moveTo t.row (t.col + 1) (Nat.le_refl _) := by
  rw [putc, if_neg (ne_control_of_printable h (by decide)),
    if_neg (ne_control_of_printable h (by decide)), if_neg (ne_control_of_printable h (by decide)),
    if_neg (ne_control_of_printable h (by decide)), if_pos h]

theorem putc_inert (h : Inert c) : t.putc c = t := by
  obtain ⟨hbackspace, htab, hreturn, hnewline, hprint⟩ := h
  rw [putc, if_neg hbackspace, if_neg htab, if_neg hreturn, if_neg hnewline, if_neg hprint]

end Branches

/-- The topmost row a screen of 25 rows shows. -/
def top (t : Terminal) : Nat := t.row - 24

end Terminal

end Brunix
