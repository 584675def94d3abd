import SoreOS.Spec.ScreenHistory
import SoreOS.ForStd.Run
import SoreOS.ForStd.Layout

/-!
# The log holds the text

The text written since `clearScreen`, laid out in rows of 80 characters, is what
the backup pages hold — until the log is full. Making room in a full log moves
18000 bytes where 150 rows take 24000, and clears none of the rows it reuses.

## Key results

- `LogsText`: the log shows the last rows of a text and is blank behind the cursor
- `logsText_putChar_eviction`: a text whose eviction leaves an old character behind the cursor
- `logsText_run`: every text of at most 175 rows is logged
-/

namespace SoreOS.Screen

open ForStd

/-- A text in rows of 80 characters. -/
def layout (text : List UInt8) : Layout UInt8 := Layout.ofText NEWLINE 80 text

/-- The screen after `putChar` of every character of a text. -/
def putText (s : Screen) (text : List UInt8) : Screen := run putChar s text

theorem putText_append_singleton (s : Screen) (text : List UInt8) (ch : UInt8) :
    putText s (text ++ [ch]) = (putText s text).putChar ch := by
  rw [putText, run_append, run_cons, run_nil, putText]

/-- The last `n` rows of a text. -/
def lastRows (text : List UInt8) (n : Nat) : List (List UInt8) :=
  (layout text).rows.drop ((layout text).rows.length - n)

/-- Log rows 0 to `globRow` hold the last `globRow + 1` rows of the text, each
    filled up with blanks, and the cells from the cursor on are blank. -/
structure LogsText (s : Screen) (text : List UInt8) : Prop where
  enough : s.globRow + 1 ≤ (layout text).rows.length
  chars : ∀ r c : Nat, r ≤ s.globRow → c < 80 →
    s.backChar r c = ((lastRows text (s.globRow.toNat + 1)).getD r []).getD c 0
  blank : ∀ c : Nat, c < 80 → s.column ≤ 2 * c → s.backChar s.globRow c = 0

/-! ## One character -/

/-- Away from evictions `putChar` logs a character in the cursor cell. -/
theorem backChar_putChar {s : Screen} (hb : InBounds s) {ch : UInt8} (hch : ch ≠ NEWLINE)
    (hev : s.globRow < 174 ∨ s.column ≠ 158) {r c : Int} (hr : 0 ≤ r) (hc : 0 ≤ c) :
    (s.putChar ch).backChar r c =
      if r * 160 + 2 * c = s.globRow * 160 + s.column then ch else s.backChar r c := by
  have hd := hb.dispRow_eq
  have hcol := hb.column_le
  have heven := hb.column_even
  have hcell : (s.typed ch).backChar r c =
      if r * 160 + 2 * c = s.globRow * 160 + s.column then ch else s.backChar r c := by
    have h := backChar_storeCell s.scrollPageBack (d := s.dispRow * 160 + s.column)
      (g := s.globRow * 160 + s.column) ch (by omega) (by omega) hr hc
    rw [backChar_scrollPageBack s hr hc] at h
    exact h
  rw [putChar_char s hch]
  split
  · rename_i hfull
    rw [typed_column] at hfull
    have hdown := backChar_scrollLineDown (s.typed ch) (by rw [typed_globRow]; omega) hr hc
    exact hdown.trans hcell
  · exact hcell

/-- Away from evictions a newline logs nothing. -/
theorem backChar_putChar_newline {s : Screen} (hg : s.globRow < 174) {r c : Int}
    (hr : 0 ≤ r) (hc : 0 ≤ c) : (s.putChar NEWLINE).backChar r c = s.backChar r c := by
  rw [putChar_newline, backChar_scrollLineDown _ (by rw [scrollPageBack_globRow]; omega) hr hc,
    backChar_scrollPageBack s hr hc]

theorem putChar_globRow {s : Screen} {ch : UInt8} (hch : ch ≠ NEWLINE)
    (hev : s.globRow < 174 ∨ s.column ≠ 158) :
    (s.putChar ch).globRow = if s.column = 158 then s.globRow + 1 else s.globRow := by
  rw [putChar_char s hch, typed_column]
  by_cases hfull : s.column = 158
  · rw [if_pos (by omega), if_pos hfull, updateCursor_globRow, scrollLineDown_globRow,
      typed_globRow, if_neg (by omega)]
  · rw [if_neg (by omega), if_neg hfull, updateCursor_globRow, typed_globRow]

theorem putChar_column {s : Screen} {ch : UInt8} (hch : ch ≠ NEWLINE) :
    (s.putChar ch).column = if s.column = 158 then 0 else s.column + 2 := by
  rw [putChar_char s hch, typed_column]
  by_cases hfull : s.column = 158
  · rw [if_pos (by omega), if_pos hfull, updateCursor_column, scrollLineDown_column]
  · rw [if_neg (by omega), if_neg hfull, updateCursor_column, typed_column]

/-! ## A text that fits the log -/

/-- The screen that has written exactly the text laid out as `l`, all of which is
    still in the log. -/
structure Logs (s : Screen) (l : Layout UInt8) : Prop where
  inBounds : InBounds s
  paged : Paged s
  globRow : s.globRow = l.finished.length
  column : s.column = 2 * l.cur.length
  chars : ∀ r c : Nat, r ≤ l.finished.length → c < 80 →
    s.backChar r c = (l.rows.getD r []).getD c 0

theorem logs_clearScreen (s : Screen) : Logs s.clearScreen Layout.empty where
  inBounds := clearScreen_inBounds s
  paged := (settled_clearScreen s).1.paged (settled_clearScreen s).2
  globRow := rfl
  column := rfl
  chars r c hr hc := by
    have hr0 : r = 0 := by simpa [Layout.empty] using hr
    subst hr0
    have h := (settled_clearScreen s).2 0 c (by omega) (by omega) (by omega) (by omega)
    exact h (by simp only [clearScreen, updateCursor]; omega)

/-- Writing one more character into a log that has room for it. -/
theorem Logs.putChar {s : Screen} {l : Layout UInt8} (h : Logs s l) (ch : UInt8)
    (hroom : (l.put NEWLINE 80 ch).finished.length ≤ 174) :
    Logs (s.putChar ch) (l.put NEWLINE 80 ch) := by
  have hb := h.inBounds
  have hg := h.globRow
  have hcol := h.column
  have hcol' := hb.column_le
  simp only [Layout.put] at hroom ⊢
  by_cases hch : ch = NEWLINE
  · -- a newline: the next row is blank in the log
    subst hch
    rw [if_pos rfl] at hroom ⊢
    simp only [List.length_append, List.length_singleton] at hroom
    obtain ⟨hset, hblank⟩ := settled_putChar hb h.paged NEWLINE (.inl (by omega))
    refine ⟨putChar_inBounds hb _, hset.paged hblank, ?_, ?_, ?_⟩
    · rw [putChar_newline, scrollLineDown_globRow, scrollPageBack_globRow, if_neg (by omega)]
      simp [hg]
    · simp [putChar_newline]
    · intro r c hr hc
      simp only [List.length_append, List.length_singleton] at hr
      rw [backChar_putChar_newline (by omega) (by omega) (by omega), Layout.rows, Layout.getD_next_row]
      by_cases hlast : r = l.finished.length + 1
      · subst hlast
        rw [List.getD_eq_default (l.finished ++ [l.cur]) _ (by simp)]
        exact h.paged.blank _ _ (by omega) (by omega) (by omega) (by omega) (by omega)
      · exact h.chars r c (by omega) hc
  · rw [if_neg hch] at hroom ⊢
    have hev : s.globRow < 174 ∨ s.column ≠ 158 := by
      split at hroom
      · simp only [List.length_append, List.length_singleton] at hroom
        omega
      · omega
    obtain ⟨hset, hblank⟩ := settled_putChar hb h.paged ch
      (hev.imp_right fun hne => ⟨hch, hne⟩)
    have hcell : ∀ r c : Nat, r ≤ l.finished.length → c < 80 → (s.putChar ch).backChar r c =
        ((l.finished ++ [l.cur ++ [ch]]).getD r []).getD c 0 := by
      intro r c hr hc
      have hchars := h.chars r c hr hc
      rw [Layout.rows] at hchars
      rw [backChar_putChar hb hch hev (by omega) (by omega), Layout.getD_extend_row hr, hchars]
      have hpos : ((r : Int) * 160 + 2 * (c : Int) = s.globRow * 160 + s.column) ↔
          r = l.finished.length ∧ c = l.cur.length := by omega
      simp only [hpos]
    by_cases hfull : l.cur.length + 1 = 80
    · -- the 80th character: it ends its row, and the next row is blank in the log
      rw [if_pos hfull] at hroom ⊢
      simp only [List.length_append, List.length_singleton] at hroom
      refine ⟨putChar_inBounds hb _, hset.paged hblank, ?_, ?_, ?_⟩
      · rw [putChar_globRow hch hev, if_pos (by omega)]
        simp [hg]
      · rw [putChar_column hch, if_pos (by omega)]
        simp
      · intro r c hr hc
        simp only [List.length_append, List.length_singleton] at hr
        rw [Layout.rows, Layout.getD_next_row]
        by_cases hlast : r = l.finished.length + 1
        · subst hlast
          rw [List.getD_eq_default (l.finished ++ [l.cur ++ [ch]]) _ (by simp)]
          rw [backChar_putChar hb hch hev (by omega) (by omega), if_neg (by omega)]
          exact h.paged.blank _ _ (by omega) (by omega) (by omega) (by omega) (by omega)
        · exact hcell r c (by omega) hc
    · rw [if_neg hfull] at hroom ⊢
      refine ⟨putChar_inBounds hb _, hset.paged hblank, ?_, ?_, hcell⟩
      · rw [putChar_globRow hch hev, if_neg (by omega)]
        exact hg
      · rw [putChar_column hch, if_neg (by omega), hcol]
        simp only [List.length_append, List.length_singleton]
        omega

/-- A text of at most 175 rows is in the log as a whole. -/
theorem logs_putText (s : Screen) (text : List UInt8) (h : (layout text).rows.length ≤ 175) :
    Logs (putText s.clearScreen text) (layout text) := by
  induction text using List.reverseRecOn with
  | nil => exact logs_clearScreen s
  | append_singleton text ch ih =>
    simp only [layout, Layout.ofText_append_singleton] at h ih ⊢
    have hle := Layout.length_rows_put_le NEWLINE 80 (Layout.ofText NEWLINE 80 text) ch
    have hlogs := ih (by omega)
    rw [Layout.length_rows] at h
    rw [putText_append_singleton]
    exact hlogs.putChar ch (by omega)

theorem Logs.logsText {s : Screen} {text : List UInt8} (h : Logs s (layout text)) :
    LogsText s text := by
  have hg := h.globRow
  have hlast : lastRows text (s.globRow.toNat + 1) = (layout text).rows := by
    rw [lastRows, Layout.length_rows, hg]
    simp
  refine ⟨?_, ?_, ?_⟩
  · rw [Layout.length_rows]
    omega
  · intro r c hr hc
    rw [hlast]
    exact h.chars r c (by omega) hc
  · intro c hc hcur
    have hb := h.inBounds
    exact h.paged.blank _ _ hb.globRow_nonneg hb.globRow_le (by omega) (by omega) (by omega)

/-! ## A full log -/

/-- A blank screen to start from. -/
def blankScreen : Screen := { vidmem := fun _ => 0 }

/-- 150 empty rows, an `A` in row 150, and 24 newlines more: the log is full. -/
def fullText : List UInt8 :=
  List.replicate 150 NEWLINE ++ [65] ++ List.replicate 24 NEWLINE

private theorem layout_fullText :
    (layout fullText).rows.length = 175 ∧ ((layout fullText).rows.getD 150 []).getD 0 0 = 65 := by
  decide +kernel

/-- One newline more evicts a page and puts the cursor on row 150, which the
    block move did not reach: the old `A` is under the cursor. -/
theorem logsText_putChar_eviction :
    ¬ LogsText (putText blankScreen.clearScreen (fullText ++ [NEWLINE])) (fullText ++ [NEWLINE]) := by
  intro hlog
  obtain ⟨hlen, hchar⟩ := layout_fullText
  have h := logs_putText blankScreen fullText (by omega)
  generalize hs : putText blankScreen.clearScreen fullText = s at h
  have hend : putText blankScreen.clearScreen (fullText ++ [NEWLINE]) = s.putChar NEWLINE := by
    rw [putText_append_singleton, hs]
  have hg : s.globRow = 174 := by
    rw [Layout.length_rows] at hlen
    have := h.globRow
    omega
  rw [hend] at hlog
  -- the eviction takes the cursor from row 175 to row 150
  have hrow : (s.putChar NEWLINE).globRow = 150 := by
    rw [putChar_newline, scrollLineDown_globRow, scrollPageBack_globRow, if_pos hg]
  have hcell : (s.putChar NEWLINE).backChar 150 0 = 65 := by
    rw [putChar_newline]
    simp only [backChar]
    rw [backup_scrollLineDown _ (by omega), if_neg (by omega), backup_scrollPageBack _ (by omega)]
    have hA := h.chars 150 0 (by rw [Layout.length_rows] at hlen; omega) (by omega)
    rw [hchar] at hA
    exact hA
  -- but behind the cursor the log should be blank
  have hblank := hlog.blank 0 (by omega) (by rw [putChar_newline, scrollLineDown_column]; omega)
  rw [hrow] at hblank
  exact absurd (hcell.symm.trans hblank) (by decide)

/-- While the log is not full — the text has at most 175 rows — it holds the text. -/
theorem logsText_run (s₀ : Screen) (text : List UInt8) (h : (layout text).rows.length ≤ 175) :
    LogsText (putText s₀.clearScreen text) text :=
  (logs_putText s₀ text h).logsText

/-- Two short rows. -/
theorem logsText_two_rows :
    LogsText (putText blankScreen.clearScreen [65, NEWLINE, 66]) [65, NEWLINE, 66] :=
  logsText_run blankScreen [65, NEWLINE, 66] (by decide)

end SoreOS.Screen
