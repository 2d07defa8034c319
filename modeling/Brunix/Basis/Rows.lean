import Mathlib.Data.List.DropRight
import Mathlib.Tactic.Common

/-!
# Text in rows

A text is cut into lines at a separator, and a line into rows of a fixed width. A line that fills its
last row has an empty one after it: the position behind the line is at the start of the next row.
-/

namespace Basis

variable {α : Type*}

/-- The rows of a line. -/
def rowsOf (width : Nat) (line : List α) : List (List α) :=
  (List.range (line.length / width + 1)).map fun k => (line.drop (k * width)).take width

/-- The rows of a text. -/
def wrapped [BEq α] (width : Nat) (sep : α) (text : List α) : List (List α) :=
  (text.splitOn sep).flatMap (rowsOf width)

/-- What stands in a column of a row, if the row reaches it. -/
def entryAt (rows : List (List α)) (r x : Nat) : Option α := rows[r]?.bind (·[x]?)

/-- The column behind the last row. -/
def openColumn (rows : List (List α)) : Nat := (rows.getLast?.getD []).length

section Rows

variable {width : Nat} {line : List α}

theorem length_rowsOf (width : Nat) (line : List α) :
    (rowsOf width line).length = line.length / width + 1 := by
  rw [rowsOf, List.length_map, List.length_range]

theorem rowsOf_ne_nil (width : Nat) (line : List α) : rowsOf width line ≠ [] := by
  apply List.ne_nil_of_length_pos
  rw [length_rowsOf]
  exact Nat.succ_pos _

theorem entryAt_rowsOf {x : Nat} (hx : x < width) (r : Nat) :
    entryAt (rowsOf width line) r x = getElem? line (r * width + x) := by
  rw [entryAt, rowsOf, List.getElem?_map]
  by_cases hr : r < line.length / width + 1
  · rw [List.getElem?_range hr, Option.map_some, Option.bind_some, List.getElem?_take, if_pos hx,
      List.getElem?_drop]
  · have hlast : (line.length / width + 1) * width ≤ r * width := Nat.mul_le_mul_right _ (by omega)
    have hlength := Nat.lt_div_mul_add (a := line.length) (show 0 < width by omega)
    rw [List.getElem?_eq_none (by rw [List.length_range]; omega), Option.map_none, Option.bind_none,
      List.getElem?_eq_none (by rw [Nat.add_mul, Nat.one_mul] at hlast; omega)]

theorem openColumn_rowsOf (hwidth : 0 < width) :
    openColumn (rowsOf width line) = line.length % width := by
  have hmod := Nat.mod_lt line.length hwidth
  have hdiv := Nat.div_add_mod' line.length width
  rw [openColumn, rowsOf, List.range_succ, List.map_append, List.map_singleton,
    List.getLast?_concat, Option.getD_some, List.length_take, List.length_drop]
  omega

theorem entryAt_append (rows rows' : List (List α)) (r x : Nat) :
    entryAt (rows ++ rows') r x
      = if r < rows.length then entryAt rows r x else entryAt rows' (r - rows.length) x := by
  rw [entryAt, List.getElem?_append]
  split <;> rfl

theorem openColumn_append (rows : List (List α)) {rows' : List (List α)} (h : rows' ≠ []) :
    openColumn (rows ++ rows') = openColumn rows' := by
  rw [openColumn, openColumn, List.getLast?_append_of_ne_nil _ h]

theorem entryAt_rtake (rows : List (List α)) (n r x : Nat) :
    entryAt (rows.rtake n) r x = entryAt rows (rows.length - n + r) x := by
  rw [entryAt, List.rtake, List.getElem?_drop, entryAt]

end Rows

section Lines

variable [BEq α] [LawfulBEq α] {width : Nat} {sep : α}

theorem wrapped_line (width : Nat) {line : List α} (h : sep ∉ line) :
    wrapped width sep line = rowsOf width line := by
  rw [wrapped, List.splitOn_eq_singleton h, List.flatMap_singleton]

theorem wrapped_cons (width : Nat) {line : List α} (h : sep ∉ line) (rest : List α) :
    wrapped width sep (line ++ sep :: rest) = rowsOf width line ++ wrapped width sep rest := by
  rw [wrapped, List.splitOn_append_cons_self_of_not_mem h, List.flatMap_cons, wrapped]

theorem lines_induction (sep : α) {motive : List α → Prop}
    (line : ∀ line, sep ∉ line → motive line)
    (more : ∀ line rest, sep ∉ line → motive rest → motive (line ++ sep :: rest)) (text : List α) :
    motive text := by
  induction hlength : text.length using Nat.strong_induction_on generalizing text with
  | _ n ih =>
      by_cases hsep : sep ∈ text
      · obtain ⟨first, rest, rfl, hfirst⟩ := List.eq_append_cons_of_mem hsep
        rw [List.length_append, List.length_cons] at hlength
        exact more first rest hfirst (ih rest.length (by omega) rest rfl)
      · exact line text hsep

theorem wrapped_ne_nil (width : Nat) (sep : α) (text : List α) : wrapped width sep text ≠ [] := by
  induction text using lines_induction sep with
  | line line hline =>
      rw [wrapped_line width hline]
      exact rowsOf_ne_nil width line
  | more line rest hline ih =>
      rw [wrapped_cons width hline]
      exact List.append_ne_nil_of_right_ne_nil _ ih

end Lines

end Basis
