import Mathlib.Data.List.GetD
import Mathlib.Data.List.Induction
import Mathlib.Tactic.Common

/-!
# Breaking text into rows

A text is laid out in rows of bounded width: a row ends at each newline, and
also when it has `w` characters. The last row is the one still being written.

## Key results

- `Layout.getD_next_row`, `Layout.getD_extend_row`: the rows after one more character
- `Layout.length_rows_put_le`: a text never loses a row
-/

namespace ForStd

/-- Text broken into rows: the finished ones, oldest first, and the row that is
    still being written. -/
structure Layout (α : Type) where
  finished : List (List α)
  cur : List α

namespace Layout

variable {α : Type}

/-- A layout before anything is written. -/
def empty : Layout α := ⟨[], []⟩

/-- All rows, the one being written last. -/
def rows (l : Layout α) : List (List α) := l.finished ++ [l.cur]

@[simp] theorem length_rows (l : Layout α) : l.rows.length = l.finished.length + 1 := by
  simp [rows]

/-! ## Cells

A cell is looked up with a default for the cells right of its row's text. -/

/-- A new row has no text in it. -/
theorem getD_next_row {fin : List (List α)} {row : List α} {d : α} {r c : Nat} :
    (((fin ++ [row]) ++ [[]]).getD r []).getD c d = ((fin ++ [row]).getD r []).getD c d := by
  by_cases hr : r < (fin ++ [row]).length
  · rw [List.getD_append _ _ _ _ hr]
  · rw [List.getD_eq_default (fin ++ [row]) _ (by omega), List.getD_append_right _ _ _ _ (by omega)]
    cases r - (fin ++ [row]).length <;> simp

/-- A character extends the row it is written in, and no other. -/
theorem getD_extend_row {fin : List (List α)} {row : List α} {ch d : α}
    {r c : Nat} (hr : r ≤ fin.length) :
    ((fin ++ [row ++ [ch]]).getD r []).getD c d =
      if r = fin.length ∧ c = row.length then ch else ((fin ++ [row]).getD r []).getD c d := by
  by_cases hlast : r = fin.length
  · subst hlast
    rw [List.getD_append_right _ _ _ _ (Nat.le_refl _),
      List.getD_append_right _ _ _ _ (Nat.le_refl _)]
    simp only [Nat.sub_self, List.getD_cons_zero, true_and]
    by_cases hc : c = row.length
    · subst hc
      simp
    · rw [if_neg hc]
      by_cases hlt : c < row.length
      · rw [List.getD_append _ _ _ _ hlt]
      · rw [List.getD_eq_default _ _ (by simp; omega), List.getD_eq_default _ _ (by omega)]
  · rw [if_neg (fun h => hlast h.1), List.getD_append _ _ _ _ (by omega),
      List.getD_append _ _ _ _ (by omega)]

variable [DecidableEq α]

/-- Write one character. -/
def put (nl : α) (w : Nat) (l : Layout α) (c : α) : Layout α :=
  if c = nl then ⟨l.finished ++ [l.cur], []⟩
  else if l.cur.length + 1 = w then ⟨l.finished ++ [l.cur ++ [c]], []⟩
  else ⟨l.finished, l.cur ++ [c]⟩

/-- Lay out a text from its first character. -/
def ofText (nl : α) (w : Nat) (text : List α) : Layout α := text.foldl (put nl w) empty

theorem ofText_append_singleton (nl : α) (w : Nat) (text : List α) (c : α) :
    ofText nl w (text ++ [c]) = (ofText nl w text).put nl w c := by
  simp [ofText, List.foldl_append]

/-- Writing finishes at most one row. -/
theorem length_rows_put_le (nl : α) (w : Nat) (l : Layout α) (c : α) :
    l.rows.length ≤ (l.put nl w c).rows.length := by
  simp only [put, length_rows]
  split
  · simp
  · split <;> simp

/-- The row that is being written is never full. -/
theorem length_cur_ofText (nl : α) {w : Nat} (hw : 0 < w) (text : List α) : (ofText nl w text).cur.length < w := by
  induction text using List.reverseRecOn with
  | nil => exact hw
  | append_singleton text c ih =>
    rw [ofText_append_singleton, put]
    split
    · exact hw
    · split
      · exact hw
      · rename_i hfull
        rw [List.length_append, List.length_singleton]
        omega

end Layout

end ForStd
