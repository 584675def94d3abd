import SoreOS.Spec.ScreenInvariant

/-!
# The display page and the log

Until history is evicted, the log is blank from the cursor on, and the display
page, when it is not scrolled away, is a page of the log. Each screen function
is shown to keep these two facts, which is what lets `scrollPageBack` restore
the display from the log alone.

## Key results

- `Blank`, `Settled`, `Paged`: the invariants
- `settled_putChar`, `settled_delChar`: writing settles the page
-/

namespace SoreOS.Screen

open ForStd

/-- Every log cell from the cursor on is blank. Cells are compared by their offset
    in the log, so that column -2 is the last cell of the row above. -/
def Blank (s : Screen) : Prop :=
  ∀ r c, 0 ≤ r → r ≤ 174 → 0 ≤ c → c < 80 →
    s.globRow * 160 + s.column ≤ r * 160 + 2 * c → s.backChar r c = 0

/-- The display page shows the 25 log rows from `line` on. -/
def ShowsFrom (s : Screen) (line : Int) : Prop :=
  ∀ r c, 0 ≤ r → r < 25 → 0 ≤ c → c < 80 → s.dispChar r c = s.backChar (line + r) c

/-- Nobody has scrolled away: the display page is the home page of the log. -/
structure Settled (s : Screen) : Prop where
  lineShow : s.lineShow = s.home
  shows : s.ShowsFrom s.home

/-- What holds between calls: the log is blank from the cursor on, and the
    display page is the home page if `lineShow` says so. -/
structure Paged (s : Screen) : Prop where
  blank : s.Blank
  shows : s.lineShow = s.home → s.ShowsFrom s.home

theorem Settled.paged {s : Screen} (h : Settled s) (hb : Blank s) : Paged s :=
  ⟨hb, fun _ => h.shows⟩

/-! ## Paging -/

theorem showsFrom_showLine (s : Screen) {line : Int} (hline : 0 ≤ line) :
    (showLine s line).ShowsFrom line := by
  intro r c hr hr' hc hc'
  have h := display_showLine s hline (i := r * 160 + 2 * c) (by omega) (by omega)
  have hb := backup_showLine s line (a := BACKUP_ADDRESS + (line + r) * 160 + 2 * c) (by omega)
  simp only [dispChar, backChar]
  rw [hb, Int.add_assoc, h]
  congr 1
  omega

theorem Blank.showLine {s : Screen} (h : Blank s) (line : Int) : Blank (s.showLine line) := by
  intro r c hr hr' hc hc' hcur
  exact (backup_showLine s line (by omega)).trans (h r c hr hr' hc hc' hcur)

/-- Showing any page keeps the invariant: if the page shown is the home page, it
    was copied from the log. -/
theorem Paged.showLine {s : Screen} (h : Paged s) (line : Int) : Paged (s.showLine line) where
  blank := h.blank.showLine line
  shows hline := by
    have hline' : line = s.home := hline
    have hnonneg : 0 ≤ s.home := by simp only [home]; omega
    subst hline'
    exact showsFrom_showLine s hnonneg

/-- `scrollPageBack` settles the page. -/
theorem Paged.settled_scrollPageBack {s : Screen} (h : Paged s) :
    Settled s.scrollPageBack ∧ Blank s.scrollPageBack := by
  have hnonneg : 0 ≤ s.home := by simp only [home]; omega
  rw [scrollPageBack_eq]
  split
  · exact ⟨⟨rfl, showsFrom_showLine s hnonneg⟩, h.blank.showLine _⟩
  · rename_i hline
    have hline' : s.lineShow = s.home := by simpa using hline
    exact ⟨⟨hline', h.shows hline'⟩, h.blank⟩

/-! ## Storing and moving

The cursor cell has offset `dispRow * 160 + column` on the display and
`globRow * 160 + column` in the log; the two differ by the home page. -/

/-- Storing the same cell on the display and in the log keeps the page settled. -/
theorem ShowsFrom.storeCell {s : Screen} {line : Int} (h : s.ShowsFrom line) {d : Int}
    (ch : UInt8) (hline : 0 ≤ line) (hd : 0 ≤ d) (hd' : d + 1 < 4000) (heven : d % 2 = 0) :
    (s.storeCell d (line * 160 + d) ch).ShowsFrom line := by
  intro r c hr hr' hc hc'
  have hcell : (line + r) * 160 + 2 * c = line * 160 + d ↔ r * 160 + 2 * c = d := by omega
  rw [dispChar_storeCell s ch (by omega) heven hr' hc',
    backChar_storeCell s ch hd' (by omega) (by omega) hc, h r c hr hr' hc hc']
  simp only [hcell]

/-- A new line keeps a settled page settled, as the row it uncovers is blank. -/
theorem settled_scrollLineDown {s : Screen} (h : Settled s) (hb : Blank s)
    (hg : 0 ≤ s.globRow) (hg' : s.globRow < 174) (hd : s.dispRow = min s.globRow 24)
    (hcol : s.column ≤ 160) :
    Settled s.scrollLineDown ∧ Blank s.scrollLineDown := by
  have hrow : s.scrollLineDown.globRow = s.globRow + 1 := by
    rw [scrollLineDown_globRow, if_neg (by omega)]
  have hhome : s.scrollLineDown.home = s.home + (if s.dispRow = 24 then 1 else 0) := by
    simp only [home, hrow]
    split <;> omega
  refine ⟨⟨?_, ?_⟩, ?_⟩
  · rw [hhome, scrollLineDown_lineShow, h.lineShow, if_neg (by omega), Int.sub_zero]
  · intro r c hr hr' hc hc'
    have hnonneg : 0 ≤ s.home := by simp only [home]; omega
    have hdisp := display_scrollLineDown s (by omega) hr hr' hc hc'
    rw [hhome, backChar_scrollLineDown s (by omega) (by split <;> omega) hc]
    simp only [dispChar] at hdisp ⊢
    rw [hdisp]
    by_cases hfull : s.dispRow = 24
    · rw [if_pos hfull, if_pos hfull]
      by_cases hlast : r = 24
      · rw [if_pos hlast]
        -- the row that scrolls in is blank on the display and in the log
        have hh : s.home = s.globRow - 24 := by simp only [home]; omega
        exact (hb _ c (by omega) (by omega) hc hc' (by omega)).symm
      · rw [if_neg hlast]
        -- the others move up, as the home page moves down
        have hs := h.shows (r + 1) c (by omega) (by omega) hc hc'
        simp only [dispChar] at hs
        rw [hs]
        congr 1
        omega
    · rw [if_neg hfull, if_neg hfull, Int.add_zero]
      -- the page is not full yet and stays where it is
      exact h.shows r c hr hr' hc hc'
  · intro r c hr hr' hc hc' hcur
    rw [backChar_scrollLineDown s (by omega) hr hc]
    rw [hrow, scrollLineDown_column] at hcur
    exact hb r c hr hr' hc hc' (by omega)

/-- Going back a line keeps the page settled. -/
theorem settled_scrollLineUp {s : Screen} (h : Settled s) (hg : 1 ≤ s.globRow)
    (hd : s.dispRow = min s.globRow 24) : Settled s.scrollLineUp := by
  have hhome : s.scrollLineUp.home =
      if s.dispRow = 24 ∧ s.globRow ≥ 25 then s.globRow - 25 else 0 := by
    simp only [home, scrollLineUp_globRow]
    split <;> omega
  have hh : s.home = max 0 (s.globRow - 24) := rfl
  refine ⟨?_, ?_⟩
  · rw [hhome, scrollLineUp_lineShow, h.lineShow]
    split <;> omega
  · intro r c hr hr' hc hc'
    have hdisp := display_scrollLineUp s (i := r * 160 + 2 * c) (by omega) (by omega)
    rw [hhome, backChar_scrollLineUp s (by split <;> omega) hc]
    simp only [dispChar]
    rw [Int.add_assoc, hdisp]
    split
    · simp only [backChar]
      congr 1
      omega
    · rw [← Int.add_assoc]
      have hs := h.shows r c hr hr' hc hc'
      rw [show s.home = 0 from by omega] at hs
      exact hs

theorem blank_updateCursor {s : Screen} (h : Blank s) : Blank s.updateCursor := h

theorem settled_updateCursor {s : Screen} (h : Settled s) : Settled s.updateCursor :=
  ⟨h.lineShow, h.shows⟩

/-! ## Writing -/

/-- The log row under display row `dispRow`. -/
theorem home_add_dispRow {s : Screen} (hb : InBounds s) : s.home + s.dispRow = s.globRow := by
  have hd := hb.dispRow_eq
  have hg := hb.globRow_nonneg
  simp only [home]
  omega

theorem home_scrollPageBack (s : Screen) : s.scrollPageBack.home = s.home := by
  simp [home]

/-- Storing the cursor cell and moving the column on keeps the page settled. -/
theorem settled_typed {s : Screen} (hb : InBounds s) (h : Paged s) (ch : UInt8) :
    Settled (s.typed ch) ∧ Blank (s.typed ch) := by
  obtain ⟨hset, hblank⟩ := h.settled_scrollPageBack
  have hd := hb.dispRow_eq
  have hrow := home_add_dispRow hb
  have hcol := hb.column_le
  have hcol' := hb.column_nonneg
  have hg := hb.globRow_nonneg
  have heven := hb.column_even
  have hhome : (s.typed ch).home = s.home := by simp [home]
  have hoff : s.globRow * 160 + s.column = s.home * 160 + (s.dispRow * 160 + s.column) := by omega
  have hnonneg : 0 ≤ s.home := by simp only [home]; omega
  refine ⟨⟨?_, ?_⟩, ?_⟩
  · rw [hhome]; simp [typed]
  · rw [hhome]
    -- the cell is the same on the display and in the log
    have hshow := hset.shows
    rw [home_scrollPageBack] at hshow
    have := hshow.storeCell (d := s.dispRow * 160 + s.column) ch hnonneg (by omega) (by omega)
      (by omega)
    rw [← hoff] at this
    exact this
  · intro r c hr hr' hc hc' hcur
    rw [typed_globRow, typed_column] at hcur
    have hcell := backChar_storeCell s.scrollPageBack (d := s.dispRow * 160 + s.column)
      (g := s.globRow * 160 + s.column) ch (by omega) (by omega) hr hc
    rw [if_neg (by omega)] at hcell
    exact hcell.trans (hblank r c hr hr' hc hc' (by simp; omega))

/-- Clearing the cell before the cursor keeps the page settled. The cell may be
    the last one of the row above, when the cursor is in column 0. -/
theorem settled_erased {s : Screen} (hb : InBounds s) (h : Paged s)
    (horg : 2 ≤ s.dispRow * 160 + s.column) : Settled s.erased ∧ Blank s.erased := by
  obtain ⟨hset, hblank⟩ := h.settled_scrollPageBack
  have hd := hb.dispRow_eq
  have hrow := home_add_dispRow hb
  have hcol := hb.column_le
  have hcol' := hb.column_nonneg
  have hg := hb.globRow_nonneg
  have heven := hb.column_even
  have hhome : s.erased.home = s.home := by simp [home]
  have hoff : s.globRow * 160 + s.column - 2 =
      s.home * 160 + (s.dispRow * 160 + s.column - 2) := by omega
  have hnonneg : 0 ≤ s.home := by simp only [home]; omega
  refine ⟨⟨?_, ?_⟩, ?_⟩
  · rw [hhome]; simp [erased]
  · rw [hhome]
    have hshow := hset.shows
    rw [home_scrollPageBack] at hshow
    have := hshow.storeCell (d := s.dispRow * 160 + s.column - 2) 0 hnonneg (by omega) (by omega)
      (by omega)
    rw [← hoff] at this
    exact this
  · intro r c hr hr' hc hc' hcur
    rw [erased_globRow, erased_column] at hcur
    have hcell := backChar_storeCell s.scrollPageBack (d := s.dispRow * 160 + s.column - 2)
      (g := s.globRow * 160 + s.column - 2) 0 (by omega) (by omega) hr hc
    refine hcell.trans ?_
    split
    · rfl
    · -- behind the erased cell nothing has changed
      exact hblank r c hr hr' hc hc' (by simp; omega)

/-- Writing a character settles the page, unless it evicts history. -/
theorem settled_putChar {s : Screen} (hb : InBounds s) (h : Paged s) (ch : UInt8)
    (hev : s.globRow < 174 ∨ ch ≠ NEWLINE ∧ s.column ≠ 158) :
    Settled (s.putChar ch) ∧ Blank (s.putChar ch) := by
  have hg := hb.globRow_nonneg
  have hd := hb.dispRow_eq
  have hcol := hb.column_le
  by_cases hch : ch = NEWLINE
  · subst hch
    obtain ⟨hset, hblank⟩ := h.settled_scrollPageBack
    rw [putChar_newline]
    exact settled_scrollLineDown hset hblank (by simpa) (by simp at hev ⊢; omega) (by simpa)
      (by simp only [scrollPageBack_column]; omega)
  · obtain ⟨hset, hblank⟩ := settled_typed hb h ch
    rw [putChar_char s hch]
    split
    · rename_i hfull
      rw [typed_column] at hfull
      obtain ⟨hset', hblank'⟩ := settled_scrollLineDown hset hblank (by simpa)
        (by simp only [typed_globRow]; omega) (by simpa) (by simp only [typed_column]; omega)
      exact ⟨settled_updateCursor hset', blank_updateCursor hblank'⟩
    · exact ⟨settled_updateCursor hset, blank_updateCursor hblank⟩

/-- Deleting a character settles the page. -/
theorem settled_delChar {s : Screen} (hb : InBounds s) (h : Paged s) :
    Settled s.delChar ∧ Blank s.delChar := by
  have hg := hb.globRow_nonneg
  have hd := hb.dispRow_eq
  by_cases horg : s.dispRow * 160 + s.column < 2
  · rw [delChar_origin s horg]
    exact h.settled_scrollPageBack
  · obtain ⟨hset, hblank⟩ := settled_erased hb h (by omega)
    rw [delChar_char s (by omega)]
    split
    · rename_i hneg
      rw [erased_column] at hneg
      have hcol := hb.column_nonneg
      have heven := hb.column_even
      refine ⟨settled_updateCursor (settled_scrollLineUp hset (by simp only [erased_globRow]; omega)
        (by simpa)), ?_⟩
      -- the cursor is now on the last cell of the row above, which was just cleared
      intro r c hr hr' hc hc' hcur
      simp only [updateCursor_globRow, updateCursor_column, scrollLineUp_globRow,
        scrollLineUp_column, erased_globRow] at hcur
      refine (backChar_scrollLineUp s.erased hr hc).trans (hblank r c hr hr' hc hc' ?_)
      rw [erased_globRow, erased_column]
      omega
    · exact ⟨settled_updateCursor hset, blank_updateCursor hblank⟩

/-! ## Clearing -/

theorem settled_clearScreen (s : Screen) : Settled s.clearScreen ∧ Blank s.clearScreen := by
  have hcell : ∀ k : Nat, k < 16000 →
      s.clearScreen.vidmem (VIDEO_ADDRESS + 2 * k) = 0 := fun k hk =>
    eraseCells_char _ _ _ _ k hk
  have hback : ∀ r c, 0 ≤ r → r ≤ 174 → 0 ≤ c → c < 80 → s.clearScreen.backChar r c = 0 := by
    intro r c hr hr' hc hc'
    have h := hcell ((r + 25) * 80 + c).toNat (by omega)
    rw [Int.toNat_of_nonneg (by omega)] at h
    simp only [backChar, BACKUP_ADDRESS, VIDEO_ADDRESS] at h ⊢
    rw [← h]
    congr 1
    omega
  refine ⟨⟨rfl, ?_⟩, fun r c hr hr' hc hc' _ => hback r c hr hr' hc hc'⟩
  intro r c hr hr' hc hc'
  have h := hcell (r * 80 + c).toNat (by omega)
  rw [Int.toNat_of_nonneg (by omega)] at h
  have hhome : s.clearScreen.home = 0 := rfl
  rw [hhome, hback (0 + r) c (by omega) (by omega) hc hc', ← h]
  simp only [dispChar]
  congr 1
  omega

end SoreOS.Screen
