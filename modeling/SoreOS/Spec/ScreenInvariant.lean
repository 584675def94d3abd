import SoreOS.Native.Screen

/-!
# Screen invariants

What each screen function does to the four counters and to the two regions of
video memory, the display page and the backup log behind it. The effect of a
function is stated field by field, so that later files never unfold it.

## Key results

- `InBounds`: the relation between the counters that every call keeps
- `putChar_inBounds`, `delChar_inBounds`: the two calls that move the cursor keep it
- `putChar_lineShow`, `delChar_lineShow`: they show the home page
- `backup_showLine`: paging reads the log and never writes it
-/

namespace SoreOS.Screen

open ForStd

/-! ## Erasing and paging -/

/-- Erasing writes only the cells it is given. -/
theorem eraseCells_outside (m : Bytes) (start : Int) (style : UInt8) (n : Nat) (a : Int)
    (h : a < start ∨ start + 2 * n ≤ a) : eraseCells m start style n a = m a := by
  induction n with
  | zero => rfl
  | succ n ih =>
    simp only [eraseCells]
    rw [Mem.set_other _ _ (by omega), Mem.set_other _ _ (by omega)]
    exact ih (by omega)

/-- Every erased cell holds character 0. -/
theorem eraseCells_char (m : Bytes) (start : Int) (style : UInt8) (n k : Nat) (h : k < n) :
    eraseCells m start style n (start + 2 * k) = 0 := by
  induction n with
  | zero => omega
  | succ n ih =>
    simp only [eraseCells]
    rw [Mem.set_other _ _ (by omega)]
    by_cases hk : k = n
    · subst hk
      rw [Mem.set_same]
    · rw [Mem.set_other _ _ (by omega)]
      exact ih (by omega)

/-- Copying a page to the display leaves the log as it is. -/
theorem backup_showLine (s : Screen) (line : Int) {a : Int} (ha : BACKUP_ADDRESS ≤ a) :
    (showLine s line).vidmem a = s.vidmem a := by
  simp only [showLine, VIDEO_ADDRESS, BACKUP_ADDRESS] at *
  exact memcpy_outside _ _ _ _ (by omega)

/-- A page copied from inside the log is shown as it stands there. -/
theorem display_showLine (s : Screen) {line : Int} (hline : 0 ≤ line) {i : Int}
    (hi : 0 ≤ i) (hi' : i < 4000) :
    (showLine s line).vidmem (VIDEO_ADDRESS + i) =
      s.vidmem (BACKUP_ADDRESS + line * 160 + i) := by
  simp only [showLine, VIDEO_ADDRESS, BACKUP_ADDRESS]
  rw [memcpy_inside _ (by omega) _ (by omega) (by omega)]
  congr 1
  omega

/-! ## The counters -/

/-- The cursor stays on the page, and the display row follows the log row until
    the page is full. -/
structure InBounds (s : Screen) : Prop where
  column_even : s.column % 2 = 0
  column_nonneg : 0 ≤ s.column
  column_le : s.column ≤ 158
  globRow_nonneg : 0 ≤ s.globRow
  globRow_le : s.globRow ≤ 174
  dispRow_eq : s.dispRow = min s.globRow 24

/-- The log row from which the display page is taken while nobody pages. -/
def home (s : Screen) : Int := max 0 (s.globRow - 24)

theorem scrollPageBack_eq (s : Screen) :
    scrollPageBack s = if s.lineShow ≠ s.home then showLine s s.home else s := by
  have hline : (if s.globRow - 24 < 0 then 0 else s.globRow - 24) = s.home := by
    simp only [home]
    omega
  simp only [scrollPageBack, hline]

@[simp] theorem scrollPageBack_column (s : Screen) : (scrollPageBack s).column = s.column := by
  rw [scrollPageBack_eq]; split <;> rfl

@[simp] theorem scrollPageBack_dispRow (s : Screen) : (scrollPageBack s).dispRow = s.dispRow := by
  rw [scrollPageBack_eq]; split <;> rfl

@[simp] theorem scrollPageBack_globRow (s : Screen) : (scrollPageBack s).globRow = s.globRow := by
  rw [scrollPageBack_eq]; split <;> rfl

@[simp] theorem scrollPageBack_style (s : Screen) : (scrollPageBack s).style = s.style := by
  rw [scrollPageBack_eq]; split <;> rfl

@[simp] theorem scrollPageBack_lineShow (s : Screen) : (scrollPageBack s).lineShow = s.home := by
  rw [scrollPageBack_eq]
  split
  · rfl
  · rename_i h
    simpa using h

theorem backup_scrollPageBack (s : Screen) {a : Int} (ha : BACKUP_ADDRESS ≤ a) :
    (scrollPageBack s).vidmem a = s.vidmem a := by
  rw [scrollPageBack_eq]
  split
  · exact backup_showLine s _ ha
  · rfl

/-! ## Scrolling by a line -/

@[simp] theorem scrollLineDown_column (s : Screen) : (scrollLineDown s).column = 0 := by
  simp only [scrollLineDown]; split <;> split <;> rfl

@[simp] theorem scrollLineDown_style (s : Screen) : (scrollLineDown s).style = s.style := by
  simp only [scrollLineDown]; split <;> split <;> rfl

theorem scrollLineDown_globRow (s : Screen) :
    (scrollLineDown s).globRow = if s.globRow = 174 then 150 else s.globRow + 1 := by
  simp only [scrollLineDown]
  split <;> split <;> simp only <;> split <;> omega

theorem scrollLineDown_dispRow (s : Screen) :
    (scrollLineDown s).dispRow = if s.dispRow = 24 then 24 else s.dispRow + 1 := by
  simp only [scrollLineDown]
  by_cases hg : s.globRow + 1 = 175 <;> by_cases hd : s.dispRow = 24 <;> simp [hg, hd]

/-- On a full page the shown line moves with the text, by 25 rows back in an eviction. -/
theorem scrollLineDown_lineShow (s : Screen) :
    (scrollLineDown s).lineShow =
      s.lineShow - (if s.globRow = 174 then 25 else 0) + (if s.dispRow = 24 then 1 else 0) := by
  have hfull : s.globRow + 1 = 175 ↔ s.globRow = 174 := by omega
  simp only [scrollLineDown, hfull]
  by_cases hg : s.globRow = 174 <;> by_cases hd : s.dispRow = 24 <;> simp [hg, hd]

/-- The block move of an eviction. -/
private theorem memcpy_eviction (m : Bytes) {a : Int} (ha : BACKUP_ADDRESS ≤ a) :
    memcpy m BACKUP_ADDRESS (BACKUP_ADDRESS + 4000) 18000 a =
      if a < BACKUP_ADDRESS + 18000 then m (a + 4000) else m a := by
  split
  · rename_i hlt
    rw [memcpy_inside _ (by omega) _ ha (by omega)]
    congr 1
    omega
  · rename_i hge
    exact memcpy_outside _ _ _ _ (by omega)

/-- The move of a full display page by one line, with the last line erased. -/
private theorem erase_shift_backup (m : Bytes) (style : UInt8) {a : Int}
    (ha : BACKUP_ADDRESS ≤ a) :
    eraseCells (memcpy m VIDEO_ADDRESS (VIDEO_ADDRESS + 160) (24 * 160))
      (VIDEO_ADDRESS + 24 * 160) style 80 a = m a := by
  simp only [VIDEO_ADDRESS, BACKUP_ADDRESS] at ha ⊢
  rw [eraseCells_outside _ _ _ _ _ (by omega), memcpy_outside _ _ _ _ (by omega)]

private theorem erase_shift_display (m : Bytes) (style : UInt8) {r c : Int}
    (hr : 0 ≤ r) (hr' : r < 25) (hc : 0 ≤ c) (hc' : c < 80) :
    eraseCells (memcpy m VIDEO_ADDRESS (VIDEO_ADDRESS + 160) (24 * 160))
      (VIDEO_ADDRESS + 24 * 160) style 80 (VIDEO_ADDRESS + r * 160 + 2 * c) =
      if r = 24 then 0 else m (VIDEO_ADDRESS + (r + 1) * 160 + 2 * c) := by
  split
  · rename_i hlast
    subst hlast
    have h := eraseCells_char (memcpy m VIDEO_ADDRESS (VIDEO_ADDRESS + 160) (24 * 160))
      (VIDEO_ADDRESS + 24 * 160) style 80 c.toNat (by omega)
    rwa [Int.toNat_of_nonneg hc] at h
  · rename_i hlast
    rw [eraseCells_outside _ _ _ _ _ (by omega),
      memcpy_inside _ (by omega) _ (by omega) (by omega)]
    congr 1
    omega

/-- Starting a line changes the log only in an eviction, and then by its block move. -/
theorem backup_scrollLineDown (s : Screen) {a : Int} (ha : BACKUP_ADDRESS ≤ a) :
    (scrollLineDown s).vidmem a =
      if s.globRow = 174 ∧ a < BACKUP_ADDRESS + 18000 then s.vidmem (a + 4000)
      else s.vidmem a := by
  have hfull : s.globRow + 1 = 175 ↔ s.globRow = 174 := by omega
  simp only [scrollLineDown, hfull]
  by_cases hg : s.globRow = 174 <;> by_cases hd : s.dispRow = 24 <;>
    simp only [if_pos, if_neg, hg, hd, not_false_eq_true, true_and, false_and,
      erase_shift_backup _ _ ha, memcpy_eviction _ ha]

/-- On a page that is not full, starting a line leaves the display as it is; on
    a full page the rows move up and the last one is blank. -/
theorem display_scrollLineDown (s : Screen) (hg : s.globRow ≠ 174) {r c : Int}
    (hr : 0 ≤ r) (hr' : r < 25) (hc : 0 ≤ c) (hc' : c < 80) :
    (scrollLineDown s).vidmem (VIDEO_ADDRESS + r * 160 + 2 * c) =
      if s.dispRow = 24 then
        if r = 24 then 0 else s.vidmem (VIDEO_ADDRESS + (r + 1) * 160 + 2 * c)
      else s.vidmem (VIDEO_ADDRESS + r * 160 + 2 * c) := by
  have hfull : ¬ s.globRow + 1 = 175 := by omega
  simp only [scrollLineDown, if_neg hfull]
  by_cases hd : s.dispRow = 24
  · simp only [if_pos hd]
    exact erase_shift_display s.vidmem s.style hr hr' hc hc'
  · simp only [if_neg hd]

@[simp] theorem scrollLineUp_column (s : Screen) : (scrollLineUp s).column = 158 := rfl

@[simp] theorem scrollLineUp_style (s : Screen) : (scrollLineUp s).style = s.style := by
  simp only [scrollLineUp]; split <;> rfl

@[simp] theorem scrollLineUp_globRow (s : Screen) : (scrollLineUp s).globRow = s.globRow - 1 := by
  simp only [scrollLineUp]; split <;> rfl

theorem scrollLineUp_dispRow (s : Screen) :
    (scrollLineUp s).dispRow =
      if s.dispRow = 24 ∧ s.globRow ≥ 25 then s.dispRow else s.dispRow - 1 := by
  simp only [scrollLineUp]; split <;> rfl

theorem scrollLineUp_lineShow (s : Screen) :
    (scrollLineUp s).lineShow =
      if s.dispRow = 24 ∧ s.globRow ≥ 25 then s.lineShow - 1 else s.lineShow := by
  simp only [scrollLineUp]; split <;> rfl

theorem backup_scrollLineUp (s : Screen) {a : Int} (ha : BACKUP_ADDRESS ≤ a) :
    (scrollLineUp s).vidmem a = s.vidmem a := by
  simp only [scrollLineUp, VIDEO_ADDRESS, BACKUP_ADDRESS] at *
  split
  · exact memcpy_outside _ _ _ _ (by omega)
  · rfl

/-- Going back a line from a full page shows the 25 log rows above the one left. -/
theorem display_scrollLineUp (s : Screen) {i : Int} (hi : 0 ≤ i) (hi' : i < 4000) :
    (scrollLineUp s).vidmem (VIDEO_ADDRESS + i) =
      if s.dispRow = 24 ∧ s.globRow ≥ 25 then
        s.vidmem (BACKUP_ADDRESS + (s.globRow - 25) * 160 + i)
      else s.vidmem (VIDEO_ADDRESS + i) := by
  simp only [scrollLineUp]
  by_cases h : s.dispRow = 24 ∧ s.globRow ≥ 25
  · rw [if_pos h, if_pos h]
    simp only [VIDEO_ADDRESS, BACKUP_ADDRESS]
    rw [memcpy_inside _ (by omega) _ (by omega) (by omega)]
    congr 1
    omega
  · rw [if_neg h, if_neg h]

/-! ## Storing a cell -/

/-- What storing a cell does to the log. -/
theorem backup_storeCell (s : Screen) {dispOffset : Int} (globOffset : Int) (ch : UInt8)
    (hd : dispOffset + 1 < 4000) {a : Int} (ha : BACKUP_ADDRESS ≤ a) :
    (storeCell s dispOffset globOffset ch).vidmem a =
      if a = BACKUP_ADDRESS + globOffset + 1 then s.style
      else if a = BACKUP_ADDRESS + globOffset then ch else s.vidmem a := by
  have h : a ≠ VIDEO_ADDRESS + dispOffset ∧ a ≠ VIDEO_ADDRESS + dispOffset + 1 := by
    simp only [VIDEO_ADDRESS, BACKUP_ADDRESS] at *
    omega
  simp only [storeCell, Mem.set, if_neg h.1, if_neg h.2]

/-- What storing a cell does to the display page. -/
theorem display_storeCell (s : Screen) (dispOffset : Int) {globOffset : Int} (ch : UInt8)
    (hg : 0 ≤ globOffset) {i : Int} (hi : i < 4000) :
    (storeCell s dispOffset globOffset ch).vidmem (VIDEO_ADDRESS + i) =
      if i = dispOffset + 1 then s.style
      else if i = dispOffset then ch else s.vidmem (VIDEO_ADDRESS + i) := by
  have h : VIDEO_ADDRESS + i ≠ BACKUP_ADDRESS + globOffset ∧
      VIDEO_ADDRESS + i ≠ BACKUP_ADDRESS + globOffset + 1 := by
    simp only [VIDEO_ADDRESS, BACKUP_ADDRESS]
    omega
  have hattr : VIDEO_ADDRESS + i = VIDEO_ADDRESS + dispOffset + 1 ↔ i = dispOffset + 1 := by omega
  have hchar : VIDEO_ADDRESS + i = VIDEO_ADDRESS + dispOffset ↔ i = dispOffset := by omega
  simp only [storeCell, Mem.set, if_neg h.1, if_neg h.2, hattr, hchar]

@[simp] theorem storeCell_column (s : Screen) (d g : Int) (ch : UInt8) :
    (storeCell s d g ch).column = s.column := rfl

@[simp] theorem storeCell_dispRow (s : Screen) (d g : Int) (ch : UInt8) :
    (storeCell s d g ch).dispRow = s.dispRow := rfl

@[simp] theorem storeCell_globRow (s : Screen) (d g : Int) (ch : UInt8) :
    (storeCell s d g ch).globRow = s.globRow := rfl

@[simp] theorem storeCell_lineShow (s : Screen) (d g : Int) (ch : UInt8) :
    (storeCell s d g ch).lineShow = s.lineShow := rfl

@[simp] theorem storeCell_style (s : Screen) (d g : Int) (ch : UInt8) :
    (storeCell s d g ch).style = s.style := rfl

@[simp] theorem updateCursor_column (s : Screen) : (updateCursor s).column = s.column := rfl

@[simp] theorem updateCursor_dispRow (s : Screen) : (updateCursor s).dispRow = s.dispRow := rfl

@[simp] theorem updateCursor_globRow (s : Screen) : (updateCursor s).globRow = s.globRow := rfl

@[simp] theorem updateCursor_lineShow (s : Screen) : (updateCursor s).lineShow = s.lineShow := rfl

@[simp] theorem updateCursor_style (s : Screen) : (updateCursor s).style = s.style := rfl

@[simp] theorem updateCursor_vidmem (s : Screen) : (updateCursor s).vidmem = s.vidmem := rfl

/-! ## Cells

The character of a cell, on the display page and in the log, away from evictions. -/

/-- The character shown in row `r`, column `c` of the display page. -/
def dispChar (s : Screen) (r c : Int) : UInt8 := s.vidmem (VIDEO_ADDRESS + r * 160 + 2 * c)

/-- The character logged in row `r`, column `c` of the backup pages. -/
def backChar (s : Screen) (r c : Int) : UInt8 := s.vidmem (BACKUP_ADDRESS + r * 160 + 2 * c)

theorem backChar_scrollPageBack (s : Screen) {r c : Int} (hr : 0 ≤ r) (hc : 0 ≤ c) :
    (scrollPageBack s).backChar r c = s.backChar r c :=
  backup_scrollPageBack s (by omega)

theorem backChar_scrollLineDown (s : Screen) (hg : s.globRow ≠ 174) {r c : Int}
    (hr : 0 ≤ r) (hc : 0 ≤ c) : (scrollLineDown s).backChar r c = s.backChar r c := by
  simp only [backChar]
  rw [backup_scrollLineDown s (by omega), if_neg (fun h => hg h.1)]

theorem backChar_scrollLineUp (s : Screen) {r c : Int} (hr : 0 ≤ r) (hc : 0 ≤ c) :
    (scrollLineUp s).backChar r c = s.backChar r c :=
  backup_scrollLineUp s (by omega)

/-- A stored character appears in its log cell and nowhere else in the log. The
    offset is even, so it cannot be an attribute byte of a neighbouring cell. -/
theorem backChar_storeCell (s : Screen) {d g : Int} (ch : UInt8) (hd : d + 1 < 4000)
    (heven : g % 2 = 0) {r c : Int} (hr : 0 ≤ r) (hc : 0 ≤ c) :
    (storeCell s d g ch).backChar r c =
      if r * 160 + 2 * c = g then ch else s.backChar r c := by
  have hattr : BACKUP_ADDRESS + r * 160 + 2 * c ≠ BACKUP_ADDRESS + g + 1 := by omega
  have hchar : BACKUP_ADDRESS + r * 160 + 2 * c = BACKUP_ADDRESS + g ↔ r * 160 + 2 * c = g := by
    omega
  simp only [backChar]
  rw [backup_storeCell s g ch hd (by omega), if_neg hattr]
  simp only [hchar]

/-- A stored character appears in its display cell and nowhere else on the page. -/
theorem dispChar_storeCell (s : Screen) {d g : Int} (ch : UInt8) (hg : 0 ≤ g)
    (heven : d % 2 = 0) {r c : Int} (hr : r < 25) (hc : c < 80) :
    (storeCell s d g ch).dispChar r c =
      if r * 160 + 2 * c = d then ch else s.dispChar r c := by
  have h := display_storeCell s d ch hg (i := r * 160 + 2 * c) (by omega)
  rw [if_neg (by omega), ← Int.add_assoc] at h
  exact h

/-! ## Preservation of the bounds -/

theorem clearScreen_inBounds (s : Screen) : InBounds (clearScreen s) where
  column_even := by simp [clearScreen]
  column_nonneg := by simp [clearScreen]
  column_le := by simp [clearScreen]
  globRow_nonneg := by simp [clearScreen]
  globRow_le := by simp [clearScreen]
  dispRow_eq := by
    show (0 : Int) = min 0 24
    rfl

/-- A new line starts in column 0, one log row further or at row 150 after an eviction. -/
theorem scrollLineDown_inBounds {s : Screen} (hg : 0 ≤ s.globRow) (hg' : s.globRow ≤ 174)
    (hd : s.dispRow = min s.globRow 24) : InBounds (scrollLineDown s) where
  column_even := by simp
  column_nonneg := by simp
  column_le := by simp
  globRow_nonneg := by rw [scrollLineDown_globRow]; omega
  globRow_le := by rw [scrollLineDown_globRow]; omega
  dispRow_eq := by rw [scrollLineDown_globRow, scrollLineDown_dispRow]; omega

/-- What `putChar` does with a newline. -/
theorem putChar_newline (s : Screen) :
    putChar s NEWLINE = scrollLineDown (scrollPageBack s) := by
  simp [putChar]

/-- `putChar` before the test for the end of the line: the cell is stored and the
    column moved. -/
def typed (s : Screen) (ch : UInt8) : Screen :=
  let s' := storeCell (scrollPageBack s) (s.dispRow * 160 + s.column) (s.globRow * 160 + s.column) ch
  { s' with column := s'.column + 2 }

/-- What `putChar` does with any other character. -/
theorem putChar_char (s : Screen) {ch : UInt8} (hch : ch ≠ NEWLINE) :
    putChar s ch =
      updateCursor (if (s.typed ch).column = 160 then scrollLineDown (s.typed ch)
        else s.typed ch) := by
  simp only [putChar, if_neg hch]
  rfl

@[simp] theorem typed_column (s : Screen) (ch : UInt8) : (s.typed ch).column = s.column + 2 := by
  simp [typed]

@[simp] theorem typed_dispRow (s : Screen) (ch : UInt8) : (s.typed ch).dispRow = s.dispRow := by
  simp [typed]

@[simp] theorem typed_globRow (s : Screen) (ch : UInt8) : (s.typed ch).globRow = s.globRow := by
  simp [typed]

@[simp] theorem typed_style (s : Screen) (ch : UInt8) : (s.typed ch).style = s.style := by
  simp [typed]

theorem putChar_inBounds {s : Screen} (h : InBounds s) (ch : UInt8) : InBounds (putChar s ch) := by
  by_cases hch : ch = NEWLINE
  · subst hch
    rw [putChar_newline]
    exact scrollLineDown_inBounds (by simpa using h.globRow_nonneg) (by simpa using h.globRow_le)
      (by simpa using h.dispRow_eq)
  · rw [putChar_char s hch]
    have hcol := h.column_le
    split
    · have hb := scrollLineDown_inBounds (s := s.typed ch) (by simpa using h.globRow_nonneg)
        (by simpa using h.globRow_le) (by simpa using h.dispRow_eq)
      exact ⟨hb.1, hb.2, hb.3, hb.4, hb.5, hb.6⟩
    · rename_i hne
      rw [typed_column] at hne
      have heven := h.column_even
      have hnonneg := h.column_nonneg
      refine ⟨?_, ?_, ?_, ?_, ?_, ?_⟩
      · simp only [updateCursor_column, typed_column]; omega
      · simp only [updateCursor_column, typed_column]; omega
      · simp only [updateCursor_column, typed_column]; omega
      · simpa using h.globRow_nonneg
      · simpa using h.globRow_le
      · simpa using h.dispRow_eq

/-- `delChar` before the test for the start of the line: the cell before the
    cursor is cleared and the column moved. -/
def erased (s : Screen) : Screen :=
  let s' := storeCell (scrollPageBack s) (s.dispRow * 160 + s.column - 2)
    (s.globRow * 160 + s.column - 2) 0
  { s' with column := s'.column - 2 }

@[simp] theorem erased_column (s : Screen) : s.erased.column = s.column - 2 := by simp [erased]

@[simp] theorem erased_dispRow (s : Screen) : s.erased.dispRow = s.dispRow := by simp [erased]

@[simp] theorem erased_globRow (s : Screen) : s.erased.globRow = s.globRow := by simp [erased]

@[simp] theorem erased_style (s : Screen) : s.erased.style = s.style := by simp [erased]

/-- At the very first cell `delChar` only scrolls the page back. -/
theorem delChar_origin (s : Screen) (h : s.dispRow * 160 + s.column < 2) :
    delChar s = scrollPageBack s := by
  simp only [delChar]
  rw [if_neg (by omega)]

/-- Anywhere else it deletes the cell before the cursor. -/
theorem delChar_char (s : Screen) (h : 2 ≤ s.dispRow * 160 + s.column) :
    delChar s =
      updateCursor (if s.erased.column < 0 then scrollLineUp s.erased else s.erased) := by
  simp only [delChar]
  rw [if_pos (by omega)]
  rfl

theorem delChar_inBounds {s : Screen} (h : InBounds s) : InBounds (delChar s) := by
  have hd := h.dispRow_eq
  have hg := h.globRow_nonneg
  have hg' := h.globRow_le
  have heven := h.column_even
  have hcol := h.column_nonneg
  have hcol' := h.column_le
  by_cases horg : s.dispRow * 160 + s.column < 2
  · rw [delChar_origin s horg]
    refine ⟨?_, ?_, ?_, ?_, ?_, ?_⟩
    all_goals simp only [scrollPageBack_column, scrollPageBack_globRow, scrollPageBack_dispRow]
    all_goals assumption
  · rw [delChar_char s (by omega)]
    split
    · rename_i hneg
      rw [erased_column] at hneg
      -- from column 0 back to the end of the row above
      refine ⟨by simp, by simp, by simp, ?_, ?_, ?_⟩
      · simp only [updateCursor_globRow, scrollLineUp_globRow, erased_globRow]; omega
      · simp only [updateCursor_globRow, scrollLineUp_globRow, erased_globRow]; omega
      · simp only [updateCursor_globRow, updateCursor_dispRow, scrollLineUp_globRow,
          scrollLineUp_dispRow, erased_globRow, erased_dispRow]
        split <;> omega
    · rename_i hnn
      rw [erased_column] at hnn
      refine ⟨?_, ?_, ?_, by simpa, by simpa, by simpa⟩
      · simp only [updateCursor_column, erased_column]; omega
      · simp only [updateCursor_column, erased_column]; omega
      · simp only [updateCursor_column, erased_column]; omega

/-- Starting a line from the home page leads to the home page, also in an eviction. -/
theorem scrollLineDown_home {s : Screen} (hline : s.lineShow = s.home) (hg : 0 ≤ s.globRow) (hg' : s.globRow ≤ 174)
    (hd : s.dispRow = min s.globRow 24) : (scrollLineDown s).lineShow = (scrollLineDown s).home := by
  rw [home] at hline
  rw [scrollLineDown_lineShow, home, scrollLineDown_globRow, hline]
  split <;> split <;> omega

/-- So writing a character shows the home page. -/
theorem putChar_lineShow {s : Screen} (h : InBounds s) (ch : UInt8) :
    (putChar s ch).lineShow = (putChar s ch).home := by
  by_cases hch : ch = NEWLINE
  · subst hch
    rw [putChar_newline]
    exact scrollLineDown_home (by simp [home]) (by simpa using h.globRow_nonneg) (by simpa using h.globRow_le)
      (by simpa using h.dispRow_eq)
  · have htyped : (s.typed ch).lineShow = (s.typed ch).home := by simp [typed, home]
    rw [putChar_char s hch]
    split
    · exact scrollLineDown_home htyped (by simpa using h.globRow_nonneg) (by simpa using h.globRow_le)
        (by simpa using h.dispRow_eq)
    · exact htyped

/-- And so does deleting one. -/
theorem delChar_lineShow {s : Screen} (h : InBounds s) : (delChar s).lineShow = (delChar s).home := by
  have hd := h.dispRow_eq
  by_cases horg : s.dispRow * 160 + s.column < 2
  · rw [delChar_origin s horg, scrollPageBack_lineShow]
    simp [home]
  · have herased : s.erased.lineShow = max 0 (s.globRow - 24) := by simp [erased, home]
    rw [delChar_char s (by omega)]
    split
    · show (scrollLineUp s.erased).lineShow = (scrollLineUp s.erased).home
      rw [scrollLineUp_lineShow, home, scrollLineUp_globRow, herased, erased_globRow, erased_dispRow]
      split <;> omega
    · show s.erased.lineShow = s.erased.home
      rw [herased, home, erased_globRow]

theorem showLine_inBounds {s : Screen} (h : InBounds s) (line : Int) :
    InBounds (showLine s line) :=
  ⟨h.1, h.2, h.3, h.4, h.5, h.6⟩

theorem setFontColor_inBounds {s : Screen} (h : InBounds s) (color : UInt8) :
    InBounds (setFontColor s color) :=
  ⟨h.1, h.2, h.3, h.4, h.5, h.6⟩

end SoreOS.Screen
