import SoreOS.Spec.LineEcho

/-!
# The screen as a text

What the calls of the screen driver do to the text that was written since the screen was cleared: characters are
written and deleted at its end, and pages and colors leave it alone.

## Key results

- `Logs.delChar`: deleting a character
- `logsText_edits`: the log holds the text after any calls, while it has room
-/

namespace SoreOS.Screen

open ForStd

/-- What a call does to the text. -/
def edit (text : List UInt8) : Op → List UInt8
  | .putChar ch => text ++ [ch]
  | .delChar => text.dropLast
  | .clearScreen => []
  | .setFontColor _ | .scrollPageUp | .scrollPageDown => text

/-- The log has room for what is written, and what is deleted is no newline. -/
def CanEdit (text : List UInt8) : Op → Prop
  | .putChar ch => (layout (text ++ [ch])).rows.length ≤ 175
  | .delChar => ∀ ch ∈ text.getLast?, ch ≠ NEWLINE
  | .setFontColor _ | .clearScreen | .scrollPageUp | .scrollPageDown => True

instance (text : List UInt8) : (op : Op) → Decidable (CanEdit text op)
  | .putChar _ => inferInstanceAs (Decidable (_ ≤ _))
  | .delChar => inferInstanceAs (Decidable (∀ ch ∈ text.getLast?, ch ≠ NEWLINE))
  | .setFontColor _ | .clearScreen | .scrollPageUp | .scrollPageDown => inferInstanceAs (Decidable True)

/-! ## Deleting -/

theorem delChar_globRow {s : Screen} (h : 2 ≤ s.dispRow * 160 + s.column) :
    s.delChar.globRow = if s.column < 2 then s.globRow - 1 else s.globRow := by
  rw [delChar_char s h, erased_column]
  by_cases hfirst : s.column < 2
  · rw [if_pos hfirst, if_pos (by omega), updateCursor_globRow, scrollLineUp_globRow, erased_globRow]
  · rw [if_neg hfirst, if_neg (by omega), updateCursor_globRow, erased_globRow]

theorem delChar_column {s : Screen} (h : 2 ≤ s.dispRow * 160 + s.column) :
    s.delChar.column = if s.column < 2 then 158 else s.column - 2 := by
  rw [delChar_char s h, erased_column]
  by_cases hfirst : s.column < 2
  · rw [if_pos hfirst, if_pos (by omega), updateCursor_column, scrollLineUp_column]
  · rw [if_neg hfirst, if_neg (by omega), updateCursor_column, erased_column]

/-- `delChar` takes back a character that was written last. -/
theorem Logs.delChar {s : Screen} {l : Layout UInt8} {ch : UInt8} (hch : ch ≠ NEWLINE)
    (h : Logs s (l.put NEWLINE 80 ch)) (hcur : l.cur.length < 80) : Logs s.delChar l := by
  have hb := h.inBounds
  have hg := h.globRow
  have hcol := h.column
  have hchars := h.chars
  simp only [Layout.put, if_neg hch] at hg hcol hchars
  -- the deleted character is in the last row of `l`, also if it ended that row
  have hcell : s.cursorCell = l.finished.length * 80 + l.cur.length + 1 := by
    rw [cursorCell, hg, hcol]
    split
    · simp only [List.length_append, List.length_singleton, List.length_nil]
      omega
    · simp only [List.length_append, List.length_singleton]
      omega
  have hgoes := two_le_of_cursorCell hb (by omega)
  have hold : ∀ r c : Nat, r ≤ l.finished.length → c < 80 → s.backChar r c =
      ((l.finished ++ [l.cur ++ [ch]]).getD r []).getD c 0 := by
    intro r c hr hc
    split at hchars
    · rw [hchars r c (by rw [List.length_append, List.length_singleton]; omega) hc, Layout.rows, Layout.getD_next_row]
    · exact hchars r c hr hc
  refine ⟨delChar_inBounds hb, @Paged.step s hb h.paged .delChar rfl, ?_, ?_, fun r c hr hc => ?_⟩
  · rw [delChar_globRow hgoes, hg, hcol]
    split
    · simp
    · simp only [List.length_append, List.length_singleton]
      rw [if_neg (by omega)]
  · rw [delChar_column hgoes, hcol]
    split
    · simp
      omega
    · simp only [List.length_append, List.length_singleton]
      rw [if_neg (by omega)]
      omega
  · have hindex : ((r : Int) * 80 + c = s.cursorCell - 1) ↔ r = l.finished.length ∧ c = l.cur.length := by
      rw [hcell]
      omega
    rw [backChar_eq, delChar_logChar hb (by omega) (by omega), ← backChar_eq, hold r c hr hc,
      Layout.getD_extend_row hr, if_congr hindex rfl rfl]
    split
    · rename_i hplace
      rw [Layout.rows, hplace.1, hplace.2, List.getD_append_right _ _ _ _ (Nat.le_refl _), Nat.sub_self,
        List.getD_cons_zero, List.getD_eq_default _ _ (Nat.le_refl _)]
    · rfl

/-! ## Calls -/

/-- Looking at another page. -/
theorem Logs.showLine {s : Screen} {l : Layout UInt8} (h : Logs s l) (line : Int) : Logs (s.showLine line) l where
  inBounds := showLine_inBounds h.inBounds line
  paged := h.paged.showLine line
  globRow := h.globRow
  column := h.column
  chars r c hr hc := by
    rw [backChar_eq, showLine_logChar s line (by omega), ← backChar_eq]
    exact h.chars r c hr hc

theorem Logs.scrollPageBack {s : Screen} {l : Layout UInt8} (h : Logs s l) : Logs s.scrollPageBack l := by
  unfold Screen.scrollPageBack
  generalize (if s.globRow - 24 < 0 then 0 else s.globRow - 24) = line
  dsimp only
  split
  · exact h.showLine _
  · exact h

/-- A call edits the text that the log holds. -/
theorem Logs.step {s : Screen} {text : List UInt8} (h : Logs s (layout text)) {op : Op} (hedit : CanEdit text op) :
    Logs (s.step op) (layout (edit text op)) := by
  cases op with
  | putChar ch =>
    have hroom : (layout (text ++ [ch])).rows.length ≤ 175 := hedit
    rw [edit, layout, Layout.ofText_append_singleton]
    rw [layout, Layout.ofText_append_singleton, Layout.length_rows] at hroom
    exact h.putChar ch (Nat.le_of_succ_le_succ hroom)
  | delChar =>
    obtain rfl | ⟨text, ch, rfl⟩ := List.eq_nil_or_concat' text
    · -- at the first cell there is nothing to delete
      have horigin : s.dispRow * 160 + s.column < 2 := by
        rw [h.inBounds.dispRow_eq, h.globRow, h.column]
        decide
      rw [Screen.step, delChar_origin s horigin]
      exact h.scrollPageBack
    · rw [edit, List.dropLast_concat]
      rw [layout, Layout.ofText_append_singleton] at h
      exact h.delChar (hedit ch (by rw [List.getLast?_concat]; rfl)) (Layout.length_cur_ofText _ (by decide) text)
  | setFontColor color =>
    exact ⟨setFontColor_inBounds h.inBounds color, ⟨h.paged.blank, h.paged.shows⟩, h.globRow, h.column, h.chars⟩
  | clearScreen => exact logs_clearScreen s
  | scrollPageUp => exact h.showLine _
  | scrollPageDown => exact h.showLine _

/-- So do calls one after the other. -/
theorem Logs.run {s : Screen} {text : List UInt8} (h : Logs s (layout text)) {ops : List Op}
    (hedit : ∀ n (hn : n < ops.length), CanEdit (run edit text (ops.take n)) ops[n]) :
    Logs (ForStd.run Screen.step s ops) (layout (ForStd.run edit text ops)) := by
  induction ops generalizing s text with
  | nil => exact h
  | cons op ops ih =>
    exact ih (h.step (hedit 0 (Nat.succ_pos _))) fun n hn => hedit (n + 1) (Nat.succ_lt_succ hn)

/-- The text after calls one after the other, if each of them can edit it. -/
def edits (text : List UInt8) (ops : List Op) : Option (List UInt8) :=
  ops.foldlM (fun text op => if CanEdit text op then some (edit text op) else none) text

theorem Logs.edits {s : Screen} {text text' : List UInt8} (h : Logs s (layout text)) {ops : List Op}
    (hedits : edits text ops = some text') : Logs (ForStd.run Screen.step s ops) (layout text') := by
  induction ops generalizing s text with
  | nil => exact Option.some.inj hedits ▸ h
  | cons op ops ih =>
    rw [Screen.edits, List.foldlM_cons] at hedits
    obtain ⟨text₁, hfirst, hrest⟩ := Option.bind_eq_some_iff.mp hedits
    rw [Option.ite_none_right_eq_some] at hfirst
    obtain ⟨hcan, htext⟩ := hfirst
    obtain rfl := Option.some.inj htext
    exact ih (h.step hcan) hrest

/-- A longer text has no fewer rows. -/
theorem length_rows_layout_le (text more : List UInt8) :
    (layout text).rows.length ≤ (layout (text ++ more)).rows.length := by
  induction more using List.reverseRecOn with
  | nil => rw [List.append_nil]
  | append_singleton more ch ih =>
    rw [← List.append_assoc, layout, layout, Layout.ofText_append_singleton]
    exact ih.trans (Layout.length_rows_put_le NEWLINE 80 _ ch)

/-- A text that is written behind the one in the log. -/
theorem Logs.putText {s : Screen} {text : List UInt8} (h : Logs s (layout text)) {more : List UInt8}
    (hroom : (layout (text ++ more)).rows.length ≤ 175) : Logs (s.putText more) (layout (text ++ more)) := by
  induction more using List.reverseRecOn with
  | nil => rwa [List.append_nil]
  | append_singleton more ch ih =>
    rw [← List.append_assoc] at hroom ⊢
    rw [putText_append_singleton]
    exact (ih ((length_rows_layout_le _ [ch]).trans hroom)).step (show CanEdit _ (.putChar ch) from hroom)

/-- After any calls since a `clearScreen` that write, delete, page and color, as long as the text has at most 175 rows
    and no newline is deleted, the log holds the edited text. -/
theorem logsText_edits (s₀ : Screen) (ops : List Op)
    (hedit : ∀ n (hn : n < ops.length), CanEdit (run edit [] (ops.take n)) ops[n]) :
    LogsText (run step s₀.clearScreen ops) (run edit [] ops) :=
  ((logs_clearScreen s₀).run hedit).logsText

/-- Of two letters the second one is deleted, from another page. -/
theorem logsText_edits_deleted :
    LogsText (run step blankScreen.clearScreen [.putChar 97, .putChar 98, .scrollPageUp, .delChar, .putChar 99])
      [97, 99] :=
  logsText_edits blankScreen [.putChar 97, .putChar 98, .scrollPageUp, .delChar, .putChar 99] (by decide +kernel)

end SoreOS.Screen
