import SoreOS.Spec.ScreenAccess

/-!
# What the display shows

The page of the log that `lineShow` names, and the position of the hardware cursor,
along runs of screen calls. Paging down goes above the first log row while the page is
not full, and a newline moves the cursor without telling the controller.

## Key results

- `shownLine_iff`: when the display shows rows of the log after each paging call
- `cursorSent_iff`: when the controller has the position of the cursor
- `not_shownLine`, `not_cursorSent`: runs of one call
-/

namespace SoreOS.Screen

open ForStd

/-! ## The shown line -/

/-- `lineShow` is a log row from which a page can be shown. -/
def LineInLog (s : Screen) : Prop := 0 ≤ s.lineShow ∧ s.lineShow ≤ max 0 (s.globRow - 24)

/-- The display page shows the 25 log rows from `lineShow` on. -/
def ShowsLine (s : Screen) : Prop :=
  ∀ i : Int, 0 ≤ i → i < 25 * 160 →
    s.vidmem (VIDEO_ADDRESS + i) = s.vidmem (BACKUP_ADDRESS + s.lineShow * 160 + i)

theorem lineInLog_of_home {s : Screen} (h : s.lineShow = s.home) : LineInLog s := by
  rw [LineInLog, h, home]
  omega

/-- Showing a page of the log. -/
theorem showsLine_showLine (s : Screen) {line : Int} (h : 0 ≤ line) : ShowsLine (showLine s line) := by
  intro i hi hi'
  have hbackup := backup_showLine s line (a := BACKUP_ADDRESS + line * 160 + i) (by omega)
  rw [display_showLine s h hi (by omega)]
  exact hbackup.symm

/-- The paging call is made on a full page if it goes down. -/
def PagesInLog (s : Screen) (op : Op) : Prop := op = .scrollPageDown → 24 ≤ s.globRow

theorem lineInLog_step {s : Screen} (hb : InBounds s) (h : LineInLog s) {op : Op} (hop : PagesInLog s op) :
    LineInLog (step s op) := by
  obtain ⟨hline, hline'⟩ := h
  cases op with
  | putChar ch => exact lineInLog_of_home (putChar_lineShow hb ch)
  | delChar => exact lineInLog_of_home (delChar_lineShow hb)
  | setFontColor color => exact ⟨hline, hline'⟩
  | clearScreen => exact lineInLog_of_home rfl
  | scrollPageUp =>
    simp only [LineInLog, step, scrollPageUp, showLine]
    split <;> omega
  | scrollPageDown =>
    have hfull := hop rfl
    simp only [LineInLog, step, scrollPageDown, showLine]
    split <;> omega

/-- Paging down from a page that is not full shows a line above the log. -/
theorem pagesInLog_of_step {s : Screen} (h : LineInLog s) {op : Op} (hstep : LineInLog (step s op)) :
    PagesInLog s op := by
  rintro rfl
  obtain ⟨hline, hline'⟩ := h
  have hnonneg := hstep.1
  -- the last page of a log that does not fill one begins above it
  simp only [step, scrollPageDown, showLine] at hnonneg
  split at hnonneg <;> omega

/-- A paging call that leaves `lineShow` in the log shows the rows from there on. -/
theorem showsLine_step {s : Screen} {op : Op} (hop : op.isPaging = true) (h : LineInLog (step s op)) :
    ShowsLine (step s op) := by
  cases op with
  | scrollPageUp => exact showsLine_showLine s h.1
  | scrollPageDown => exact showsLine_showLine s h.1
  | _ => exact nomatch hop

/-- In a run from `clearScreen`, `lineShow` stays in the log and every paging call shows the
    rows from there on, exactly if no call pages down before the page is full. -/
theorem shownLine_iff (s₀ : Screen) (ops : List Op) :
    let s := fun n => run step s₀.clearScreen (ops.take n)
    ((∀ n, LineInLog (s n)) ∧ ∀ n (h : n < ops.length), ops[n].isPaging = true → ShowsLine (s (n + 1))) ↔
      ∀ n (h : n < ops.length), ops[n] = .scrollPageDown → 24 ≤ (s n).globRow := by
  intro s
  have hiff : (∀ n, LineInLog (s n)) ↔ ∀ n (h : n < ops.length), PagesInLog (s n) ops[n] :=
    run_always_iff (I := fun s => InBounds s ∧ LineInLog s) (fun _ h => h.2)
      (fun _ op h hop => ⟨step_inBounds h.1 op, lineInLog_step h.1 h.2 hop⟩)
      (fun _ _ h hstep => pagesInLog_of_step h.2 hstep)
      ⟨clearScreen_inBounds s₀, lineInLog_of_home rfl⟩
  refine Iff.trans ?_ hiff
  refine and_iff_left_of_imp fun hall n h hop => ?_
  -- the state after the paging call
  have hnext : s (n + 1) = step (s n) ops[n] := run_take_succ step _ ops h
  have hline := hall (n + 1)
  rw [hnext] at hline ⊢
  exact showsLine_step hop hline

/-- Paging down on an empty screen. -/
theorem not_shownLine :
    ¬ LineInLog (run step (clearScreen { vidmem := fun _ => 0 }) [.scrollPageDown]) :=
  fun h => absurd h.1 (by decide)

/-! ## The hardware cursor -/

/-- The position that the registers of the controller hold is the position of the cursor. -/
def CursorSent (s : Screen) : Prop :=
  s.cursorHigh * 256 + s.cursorLow = s.dispRow * 80 + s.column / 2

/-- A newline is put where it leaves the cursor in its place: at the start of the last row. -/
def KeepsCursor (s : Screen) (op : Op) : Prop :=
  op = .putChar NEWLINE → s.dispRow = 24 ∧ s.column = 0

/-- The registers hold any position on the page. -/
theorem cursorSent_updateCursor {s : Screen} (hb : InBounds s) : CursorSent s.updateCursor := by
  have hd := hb.dispRow_eq
  have hg := hb.globRow_nonneg
  have hc := hb.column_nonneg
  have hc' := hb.column_le
  have hdiv : s.column.tdiv 2 = s.column / 2 := Int.tdiv_eq_ediv_of_nonneg hc
  simp only [CursorSent, updateCursor, hdiv]
  omega

theorem cursorSent_of_eq {s t : Screen} (h : s = updateCursor t) (hb : InBounds s) : CursorSent s := by
  rw [h] at hb ⊢
  exact cursorSent_updateCursor ⟨hb.1, hb.2, hb.3, hb.4, hb.5, hb.6⟩

theorem cursorSent_clearScreen (s : Screen) : CursorSent s.clearScreen := by
  simp [CursorSent, clearScreen, updateCursor]

theorem cursorSent_scrollPageBack {s : Screen} (h : CursorSent s) : CursorSent s.scrollPageBack := by
  rw [scrollPageBack_eq]
  split
  · exact h
  · exact h

/-- Starting a line sends nothing. -/
theorem cursorSent_scrollLineDown {s : Screen} (hb : InBounds s) (h : CursorSent s) :
    CursorSent s.scrollLineDown ↔ s.dispRow = 24 ∧ s.column = 0 := by
  have hhigh : s.scrollLineDown.cursorHigh = s.cursorHigh := by
    simp only [scrollLineDown]
    split <;> split <;> rfl
  have hlow : s.scrollLineDown.cursorLow = s.cursorLow := by
    simp only [scrollLineDown]
    split <;> split <;> rfl
  have hd := hb.dispRow_eq
  have hc := hb.column_nonneg
  have hc' := hb.column_le
  have heven := hb.column_even
  rw [CursorSent] at h
  rw [CursorSent, hhigh, hlow, h, scrollLineDown_dispRow, scrollLineDown_column]
  split <;> omega

/-- A call sends the position of the cursor, or leaves both as they are; a newline moves the cursor
    and sends nothing. -/
theorem cursorSent_step {s : Screen} (hb : InBounds s) (h : CursorSent s) (op : Op) :
    CursorSent (step s op) ↔ KeepsCursor s op := by
  have hother : op ≠ .putChar NEWLINE → KeepsCursor s op := fun hne heq => absurd heq hne
  cases op with
  | putChar ch =>
    by_cases hch : ch = NEWLINE
    · subst hch
      -- a newline pages back to the cursor before it starts the line
      have hback : InBounds s.scrollPageBack := by
        refine ⟨?_, ?_, ?_, ?_, ?_, ?_⟩
        all_goals simp only [scrollPageBack_column, scrollPageBack_globRow, scrollPageBack_dispRow]
        exacts [hb.1, hb.2, hb.3, hb.4, hb.5, hb.6]
      have hiff := cursorSent_scrollLineDown hback (cursorSent_scrollPageBack h)
      rw [scrollPageBack_dispRow, scrollPageBack_column, ← putChar_newline] at hiff
      refine hiff.trans ⟨fun hkeep _ => hkeep, fun hkeep => hkeep rfl⟩
    · have hsent : CursorSent (putChar s ch) := cursorSent_of_eq (putChar_char s hch) (putChar_inBounds hb ch)
      exact iff_of_true hsent (hother (by simpa using hch))
  | delChar =>
    refine iff_of_true ?_ (hother (by simp))
    -- at the origin there is nothing to delete, and nothing is sent
    by_cases horg : s.dispRow * 160 + s.column < 2
    · show CursorSent (delChar s)
      rw [delChar_origin s horg]
      exact cursorSent_scrollPageBack h
    · exact cursorSent_of_eq (delChar_char s (by omega)) (delChar_inBounds hb)
  | setFontColor color => exact iff_of_true h (hother (by simp))
  | clearScreen => exact iff_of_true (cursorSent_clearScreen s) (hother (by simp))
  | scrollPageUp => exact iff_of_true h (hother (by simp))
  | scrollPageDown => exact iff_of_true h (hother (by simp))

/-- In a run from `clearScreen`, the registers hold the position of the cursor after each call,
    exactly if no newline moves the cursor: one at the start of the last row does not. -/
theorem cursorSent_iff (s₀ : Screen) (ops : List Op) :
    let s := fun n => run step s₀.clearScreen (ops.take n)
    (∀ n, CursorSent (s n)) ↔
      ∀ n (h : n < ops.length), ops[n] = .putChar NEWLINE → (s n).dispRow = 24 ∧ (s n).column = 0 :=
  run_always_iff (I := fun s => InBounds s ∧ CursorSent s) (fun _ h => h.2)
    (fun _ op h hop => ⟨step_inBounds h.1 op, (cursorSent_step h.1 h.2 op).mpr hop⟩)
    (fun _ op h hsent => (cursorSent_step h.1 h.2 op).mp hsent)
    ⟨clearScreen_inBounds s₀, cursorSent_clearScreen s₀⟩

/-- A newline on an empty screen. -/
theorem not_cursorSent :
    ¬ CursorSent (run step (clearScreen { vidmem := fun _ => 0 }) [.putChar NEWLINE]) :=
  fun h => absurd (show (0 : Int) = 80 from h) (by decide)

end SoreOS.Screen
