import SoreOS.Spec.ScreenInvariant

/-!
# Overlapping moves

`memcpy` copies from the first byte on. To a lower address that is a faithful shift, however
the two ranges overlap: each byte is read before the loop writes over it. The moves of
`scrollLineDown` go down by a page of the log and by a row of the display.

## Key results

- `memcpy_shifted`: a copy to a lower address
- `scrollLineDown_scrolled`: the whole memory after a line was started
- `memcpy_scrolls`: both
-/

namespace SoreOS

open ForStd

/-- The bytes from `dst` on are those that were at `src`, and no other byte has changed. -/
structure Shifted (m m' : Bytes) (dst src : Int) (size : Nat) : Prop where
  moved : ∀ i < size, m' (dst + (i : Nat)) = m (src + (i : Nat))
  kept : ∀ a : Int, a < dst ∨ dst + size ≤ a → m' a = m a

theorem memcpy_shifted (m : Bytes) {dst src : Int} (hle : dst ≤ src) (size : Nat) :
    Shifted m (memcpy m dst src size) dst src size := by
  constructor
  · intro i hi
    rw [memcpy_inside m hle size (by omega) (by omega)]
    congr 1
    omega
  · exact fun a ha => memcpy_outside m dst src size ha

namespace Screen

/-- What starting a line does to the memory: a full log moves down by a page, and the rows of a full
    display page by one. The last row of such a page is erased, and no other byte changes. -/
structure Scrolled (s : Screen) (m : Bytes) : Prop where
  log : s.globRow = 174 → ∀ i < 18000, m (BACKUP_ADDRESS + (i : Nat)) = s.vidmem (BACKUP_ADDRESS + 4000 + (i : Nat))
  display : s.dispRow = 24 → ∀ i < 24 * 160, m (VIDEO_ADDRESS + (i : Nat)) = s.vidmem (VIDEO_ADDRESS + 160 + (i : Nat))
  kept : ∀ a : Int, ¬ (s.globRow = 174 ∧ BACKUP_ADDRESS ≤ a ∧ a < BACKUP_ADDRESS + 18000) →
    ¬ (s.dispRow = 24 ∧ VIDEO_ADDRESS ≤ a ∧ a < VIDEO_ADDRESS + 25 * 160) → m a = s.vidmem a

/-- The memory after the eviction. -/
def evicted (s : Screen) : Bytes :=
  if s.globRow = 174 then memcpy s.vidmem BACKUP_ADDRESS (BACKUP_ADDRESS + 4000) 18000 else s.vidmem

/-- The two moves, one after the other. -/
theorem scrollLineDown_vidmem (s : Screen) :
    (scrollLineDown s).vidmem =
      if s.dispRow = 24 then
        eraseCells (memcpy s.evicted VIDEO_ADDRESS (VIDEO_ADDRESS + 160) (24 * 160)) (VIDEO_ADDRESS + 24 * 160) s.style 80
      else s.evicted := by
  have hfull : s.globRow + 1 = 175 ↔ s.globRow = 174 := by omega
  simp only [scrollLineDown, hfull, evicted]
  by_cases hg : s.globRow = 174 <;> by_cases hd : s.dispRow = 24 <;> simp only [hg, hd, if_true, if_false]

/-- The eviction moves the log. -/
theorem evicted_log {s : Screen} (hg : s.globRow = 174) :
    Shifted s.vidmem s.evicted BACKUP_ADDRESS (BACKUP_ADDRESS + 4000) 18000 := by
  rw [evicted, if_pos hg]
  exact memcpy_shifted s.vidmem (by omega) 18000

/-- It leaves alone what is outside the log. -/
theorem evicted_kept (s : Screen) {a : Int}
    (ha : ¬ (s.globRow = 174 ∧ BACKUP_ADDRESS ≤ a ∧ a < BACKUP_ADDRESS + 18000)) : s.evicted a = s.vidmem a := by
  by_cases hg : s.globRow = 174
  · exact (evicted_log hg).kept a (by omega)
  · rw [evicted, if_neg hg]

theorem scrollLineDown_scrolled (s : Screen) : Scrolled s (scrollLineDown s).vidmem := by
  have hadjacent : BACKUP_ADDRESS = VIDEO_ADDRESS + 25 * 160 := by decide
  -- the move of the display, and the row that is erased behind it
  have hshift := memcpy_shifted s.evicted (show VIDEO_ADDRESS ≤ VIDEO_ADDRESS + 160 by omega) (24 * 160)
  rw [scrollLineDown_vidmem]
  constructor
  · intro hg i hi
    have hlog := (evicted_log hg).moved i hi
    split
    · rw [eraseCells_outside _ _ _ _ _ (by omega), hshift.kept _ (by omega), hlog]
    · exact hlog
  · intro hd i hi
    rw [if_pos hd, eraseCells_outside _ _ _ _ _ (by omega), hshift.moved i hi]
    exact s.evicted_kept (by omega)
  · intro a hlog hdisplay
    split
    · rename_i hd
      rw [eraseCells_outside _ _ _ _ _ (by omega), hshift.kept a (by omega)]
      exact s.evicted_kept hlog
    · exact s.evicted_kept hlog

end Screen

/-- A copy to a lower address is a faithful shift, whether or not the ranges overlap; and so are the moves of
    `scrollLineDown`. -/
theorem memcpy_scrolls :
    (∀ (m : Bytes) (dst src : Int) (size : Nat), dst ≤ src → Shifted m (memcpy m dst src size) dst src size) ∧
      ∀ s : Screen, Screen.Scrolled s s.scrollLineDown.vidmem :=
  ⟨fun m _ _ size hle => memcpy_shifted m hle size, Screen.scrollLineDown_scrolled⟩

/-- The move of a full display page. -/
theorem memcpy_scrolls_display :
    Shifted (fun _ => 0) (memcpy (fun _ => 0) VIDEO_ADDRESS (VIDEO_ADDRESS + 160) (24 * 160)) VIDEO_ADDRESS
      (VIDEO_ADDRESS + 160) (24 * 160) :=
  memcpy_scrolls.1 (fun _ => 0) VIDEO_ADDRESS (VIDEO_ADDRESS + 160) (24 * 160) (by decide)

end SoreOS
