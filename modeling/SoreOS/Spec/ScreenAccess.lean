import SoreOS.Spec.ScreenPaging

/-!
# The accesses of the screen driver

The screen functions once more, with every access to video memory checked: a cell
is written inside the display page and the log, a block is copied or erased inside
the region that `clearScreen` clears. In a state that can be reached no check fails,
and the functions do what they do without the checks.

## Key results

- `ShowInBounds`: the bounds of `lineShow`
- `stepChecked_ok`: no check of a call fails
- `stepChecked_sameOutside`: the checked accesses are all that a call changes memory with
- `run_checked`: so it is in every reachable state
-/

namespace SoreOS.Screen

open ForStd

/-! ## Checked functions -/

/-- The parts of video memory: the display page, the log behind it, and both together. -/
inductive Part where
  | display
  | backup
  | video
  deriving DecidableEq, Repr

def Part.start : Part → Int
  | .display => VIDEO_ADDRESS
  | .backup => BACKUP_ADDRESS
  | .video => VIDEO_ADDRESS

def Part.size : Part → Int
  | .display => 4000
  | .backup => 28000
  | .video => 8 * 80 * 25 * 2

/-- An access outside the part of video memory it should be in. -/
structure Stray where
  part : Part
  start : Int
  size : Int
  deriving DecidableEq, Repr

/-- The bytes from `start` on, `size` of them, are in the part. -/
def within (part : Part) (start size : Int) : Except Stray Unit :=
  if part.start ≤ start ∧ start + size ≤ part.start + part.size then .ok () else .error ⟨part, start, size⟩

/-- `memcpy`, with its two blocks in video memory. -/
def memcpyChecked (m : Bytes) (dst src : Int) (size : Nat) : Except Stray Bytes := do
  within .video src size
  within .video dst size
  return memcpy m dst src size

/-- The erasing loop, with its cells in video memory. -/
def eraseCellsChecked (m : Bytes) (start : Int) (style : UInt8) (n : Nat) : Except Stray Bytes := do
  within .video start (2 * n)
  return eraseCells m start style n

def clearScreenChecked (s : Screen) : Except Stray Screen := do
  let s := { s with column := 0, dispRow := 0, globRow := 0, lineShow := 0 }
  let s := updateCursor s
  let m ← eraseCellsChecked s.vidmem VIDEO_ADDRESS s.style (8 * 80 * 25)
  return { s with vidmem := m }

def scrollLineDownChecked (s : Screen) : Except Stray Screen := do
  let s := { s with column := 0, globRow := s.globRow + 1 }
  let s ←
    if s.globRow = 175 then do
      let m ← memcpyChecked s.vidmem BACKUP_ADDRESS (BACKUP_ADDRESS + 4000) 18000
      pure { s with
        vidmem := m
        globRow := s.globRow - 25
        lineShow := s.lineShow - 25 }
    else pure s
  if s.dispRow = 24 then
    let m ← memcpyChecked s.vidmem VIDEO_ADDRESS (VIDEO_ADDRESS + 160) (24 * 160)
    let m ← eraseCellsChecked m (VIDEO_ADDRESS + 24 * 160) s.style 80
    return { s with
      vidmem := m
      lineShow := s.lineShow + 1 }
  else return { s with dispRow := s.dispRow + 1 }

def scrollLineUpChecked (s : Screen) : Except Stray Screen := do
  let s ←
    if s.dispRow = 24 ∧ s.globRow ≥ 25 then do
      let m ← memcpyChecked s.vidmem VIDEO_ADDRESS (BACKUP_ADDRESS + (s.globRow - 25) * 160) (25 * 160)
      pure { s with
        vidmem := m
        lineShow := s.lineShow - 1 }
    else pure { s with dispRow := s.dispRow - 1 }
  return { s with column := 158, globRow := s.globRow - 1 }

def showLineChecked (s : Screen) (line : Int) : Except Stray Screen := do
  let m ← memcpyChecked s.vidmem VIDEO_ADDRESS (BACKUP_ADDRESS + line * 160) (25 * 160)
  return { s with
    lineShow := line
    vidmem := m }

def scrollPageUpChecked (s : Screen) : Except Stray Screen :=
  showLineChecked s (if s.lineShow - 25 < 0 then 0 else s.lineShow - 25)

def scrollPageDownChecked (s : Screen) : Except Stray Screen :=
  showLineChecked s (if s.lineShow + 25 > s.globRow - 24 then s.globRow - 24 else s.lineShow + 25)

def scrollPageBackChecked (s : Screen) : Except Stray Screen :=
  let line := if s.globRow - 24 < 0 then 0 else s.globRow - 24
  if s.lineShow ≠ line then showLineChecked s line else return s

/-- A cell is written in the log and on the display page. -/
def storeCellChecked (s : Screen) (dispOffset globOffset : Int) (ch : UInt8) : Except Stray Screen := do
  within .backup (BACKUP_ADDRESS + globOffset) 2
  within .display (VIDEO_ADDRESS + dispOffset) 2
  return storeCell s dispOffset globOffset ch

def putCharChecked (s : Screen) (ch : UInt8) : Except Stray Screen := do
  let dispOffset := s.dispRow * 160 + s.column
  let globOffset := s.globRow * 160 + s.column
  let s ← scrollPageBackChecked s
  if ch = NEWLINE then scrollLineDownChecked s
  else
    let s ← storeCellChecked s dispOffset globOffset ch
    let s := { s with column := s.column + 2 }
    let s ← if s.column = 160 then scrollLineDownChecked s else pure s
    return updateCursor s

def delCharChecked (s : Screen) : Except Stray Screen := do
  let dispOffset := s.dispRow * 160 + s.column - 2
  let globOffset := s.globRow * 160 + s.column - 2
  let s ← scrollPageBackChecked s
  if dispOffset ≥ 0 then
    let s ← storeCellChecked s dispOffset globOffset 0
    let s := { s with column := s.column - 2 }
    let s ← if s.column < 0 then scrollLineUpChecked s else pure s
    return updateCursor s
  else return s

/-- What a call does, with its accesses checked. -/
def stepChecked (s : Screen) : Op → Except Stray Screen
  | .putChar ch => putCharChecked s ch
  | .delChar => delCharChecked s
  | .setFontColor color => return setFontColor s color
  | .clearScreen => clearScreenChecked s
  | .scrollPageUp => scrollPageUpChecked s
  | .scrollPageDown => scrollPageDownChecked s

/-! ## The checks -/

theorem within_ok {part : Part} {start size : Int} (h : part.start ≤ start)
    (h' : start + size ≤ part.start + part.size) : within part start size = .ok () := if_pos ⟨h, h'⟩

theorem memcpyChecked_ok (m : Bytes) {dst src : Int} {size : Nat} (hdst : VIDEO_ADDRESS ≤ dst)
    (hsrc : VIDEO_ADDRESS ≤ src) (hdst' : dst + size ≤ VIDEO_ADDRESS + 32000)
    (hsrc' : src + size ≤ VIDEO_ADDRESS + 32000) :
    memcpyChecked m dst src size = .ok (memcpy m dst src size) := by
  rw [memcpyChecked, within_ok hsrc hsrc', ok_bind, within_ok hdst hdst']
  rfl

theorem eraseCellsChecked_ok (m : Bytes) {start : Int} (style : UInt8) {n : Nat}
    (h : VIDEO_ADDRESS ≤ start) (h' : start + 2 * n ≤ VIDEO_ADDRESS + 32000) :
    eraseCellsChecked m start style n = .ok (eraseCells m start style n) := by
  rw [eraseCellsChecked, within_ok h h']
  rfl

theorem clearScreenChecked_ok (s : Screen) : clearScreenChecked s = .ok (clearScreen s) := by
  unfold clearScreenChecked
  dsimp only
  rw [eraseCellsChecked_ok _ _ (by decide) (by decide)]
  rfl

/-- The blocks of `scrollLineDown` are fixed. -/
theorem scrollLineDownChecked_ok (s : Screen) : scrollLineDownChecked s = .ok (scrollLineDown s) := by
  have hevict : ∀ m, memcpyChecked m BACKUP_ADDRESS (BACKUP_ADDRESS + 4000) 18000 =
      .ok (memcpy m BACKUP_ADDRESS (BACKUP_ADDRESS + 4000) 18000) := fun m =>
    memcpyChecked_ok m (by decide) (by decide) (by decide) (by decide)
  have hshift : ∀ m, memcpyChecked m VIDEO_ADDRESS (VIDEO_ADDRESS + 160) (24 * 160) =
      .ok (memcpy m VIDEO_ADDRESS (VIDEO_ADDRESS + 160) (24 * 160)) := fun m =>
    memcpyChecked_ok m (by decide) (by decide) (by decide) (by decide)
  have herase : ∀ m, eraseCellsChecked m (VIDEO_ADDRESS + 24 * 160) s.style 80 =
      .ok (eraseCells m (VIDEO_ADDRESS + 24 * 160) s.style 80) := fun m =>
    eraseCellsChecked_ok m _ (by decide) (by decide)
  unfold scrollLineDownChecked scrollLineDown
  by_cases hfull : s.globRow + 1 = 175 <;> by_cases hlast : s.dispRow = 24 <;>
    simp only [hfull, hlast, if_true, if_false, hevict, hshift, herase, ok_bind, pure_eq_ok]

/-- `scrollLineUp` copies from a row of the log that exists. -/
theorem scrollLineUpChecked_ok {s : Screen} (hg : s.globRow ≤ 174) :
    scrollLineUpChecked s = .ok (scrollLineUp s) := by
  unfold scrollLineUpChecked scrollLineUp
  by_cases hpage : s.dispRow = 24 ∧ s.globRow ≥ 25
  · have hcopy := @memcpyChecked_ok s.vidmem VIDEO_ADDRESS
      (BACKUP_ADDRESS + (s.globRow - 25) * 160) (25 * 160) (by decide)
      (by unfold VIDEO_ADDRESS BACKUP_ADDRESS; omega) (by decide) (by unfold VIDEO_ADDRESS BACKUP_ADDRESS; omega)
    simp only [if_pos hpage, hcopy, ok_bind, pure_eq_ok]
  · simp only [if_neg hpage, ok_bind, pure_eq_ok]

/-- A page from 24 rows before the log on is in video memory: it begins on the display page. -/
theorem showLineChecked_ok (s : Screen) {line : Int} (h : -24 ≤ line) (h' : line ≤ 150) :
    showLineChecked s line = .ok (showLine s line) := by
  have hcopy := @memcpyChecked_ok s.vidmem VIDEO_ADDRESS (BACKUP_ADDRESS + line * 160)
    (25 * 160) (by decide) (by unfold VIDEO_ADDRESS BACKUP_ADDRESS; omega) (by decide)
    (by unfold VIDEO_ADDRESS BACKUP_ADDRESS; omega)
  rw [showLineChecked, hcopy]
  rfl

theorem storeCellChecked_ok (s : Screen) {d g : Int} (ch : UInt8) (hd : 0 ≤ d) (hd' : d + 2 ≤ 4000)
    (hg : 0 ≤ g) (hg' : g + 2 ≤ 28000) : storeCellChecked s d g ch = .ok (storeCell s d g ch) := by
  have hback : within .backup (BACKUP_ADDRESS + g) 2 = .ok () :=
    within_ok (by simp only [Part.start]; omega) (by simp only [Part.start, Part.size]; omega)
  have hdisp : within .display (VIDEO_ADDRESS + d) 2 = .ok () :=
    within_ok (by simp only [Part.start]; omega) (by simp only [Part.start, Part.size]; omega)
  rw [storeCellChecked, hback, ok_bind, hdisp]
  rfl

/-! ## Calls -/

section Calls

variable {s : Screen} (hb : InBounds s)
include hb

theorem scrollPageBackChecked_ok : scrollPageBackChecked s = .ok (scrollPageBack s) := by
  have hg := hb.globRow_nonneg
  have hg' := hb.globRow_le
  unfold scrollPageBackChecked scrollPageBack
  dsimp only
  have hline : -24 ≤ (if s.globRow - 24 < 0 then 0 else s.globRow - 24) ∧
      (if s.globRow - 24 < 0 then 0 else s.globRow - 24) ≤ 150 := by split <;> omega
  by_cases hshown : s.lineShow ≠ if s.globRow - 24 < 0 then 0 else s.globRow - 24
  · rw [if_pos hshown, if_pos hshown]
    exact showLineChecked_ok s hline.1 hline.2
  · rw [if_neg hshown, if_neg hshown]
    rfl

/-- `putChar` writes one cell, at the cursor. -/
theorem putCharChecked_ok (ch : UInt8) : putCharChecked s ch = .ok (putChar s ch) := by
  have hd := hb.dispRow_eq
  have hg := hb.globRow_nonneg
  have hg' := hb.globRow_le
  have hcol := hb.column_nonneg
  have hcol' := hb.column_le
  have hcell := storeCellChecked_ok (scrollPageBack s) (d := s.dispRow * 160 + s.column)
    (g := s.globRow * 160 + s.column) ch (by omega) (by omega) (by omega) (by omega)
  unfold putCharChecked putChar
  rw [scrollPageBackChecked_ok hb, ok_bind]
  by_cases hch : ch = NEWLINE
  · rw [if_pos hch, if_pos hch]
    exact scrollLineDownChecked_ok _
  · rw [if_neg hch, if_neg hch, hcell, ok_bind]
    dsimp only
    split
    · rw [scrollLineDownChecked_ok]
      rfl
    · rfl

/-- `delChar` writes one cell, in front of the cursor. Its offset on the display page is
    checked by the code; that the one in the log is not negative follows, as the log row
    is not above the display row. -/
theorem delCharChecked_ok : delCharChecked s = .ok (delChar s) := by
  have hd := hb.dispRow_eq
  have hg := hb.globRow_nonneg
  have hg' := hb.globRow_le
  have hcol' := hb.column_le
  unfold delCharChecked delChar
  rw [scrollPageBackChecked_ok hb, ok_bind]
  by_cases horg : s.dispRow * 160 + s.column - 2 ≥ 0
  · have hcell := storeCellChecked_ok (scrollPageBack s) (d := s.dispRow * 160 + s.column - 2)
      (g := s.globRow * 160 + s.column - 2) 0 (by omega) (by omega) (by omega) (by omega)
    rw [if_pos horg, if_pos horg, hcell, ok_bind]
    dsimp only
    split
    · rw [scrollLineUpChecked_ok]
      · rfl
      · simpa using hg'
    · rfl
  · rw [if_neg horg, if_neg horg]
    rfl

end Calls

/-! ## What the checked accesses change -/

/-- Two memories are the same outside video memory. -/
def SameOutside (m m' : Bytes) : Prop := ∀ a, a < VIDEO_ADDRESS ∨ VIDEO_ADDRESS + 32000 ≤ a → m' a = m a

theorem SameOutside.refl (m : Bytes) : SameOutside m m := fun _ _ => rfl

theorem SameOutside.trans {m m' m'' : Bytes} (h : SameOutside m m') (h' : SameOutside m' m'') : SameOutside m m'' :=
  fun a ha => (h' a ha).trans (h a ha)

theorem within_eq_ok {part : Part} {start size : Int} {u : Unit} (h : within part start size = .ok u) :
    part.start ≤ start ∧ start + size ≤ part.start + part.size := by
  unfold within at h
  split at h
  · assumption
  · cases h

/-- A cell is the character and the style, in the log and on the display page. -/
theorem storeCell_outside (s : Screen) {d g a : Int} (ch : UInt8)
    (hg : a < BACKUP_ADDRESS + g ∨ BACKUP_ADDRESS + g + 2 ≤ a) (hd : a < VIDEO_ADDRESS + d ∨ VIDEO_ADDRESS + d + 2 ≤ a) :
    (storeCell s d g ch).vidmem a = s.vidmem a := by
  unfold storeCell
  dsimp only
  rw [Mem.set_other _ _ (by omega), Mem.set_other _ _ (by omega), Mem.set_other _ _ (by omega),
    Mem.set_other _ _ (by omega)]

section Keeps

variable {s t : Screen}

theorem memcpyChecked_sameOutside {m m' : Bytes} {dst src : Int} {size : Nat} (h : memcpyChecked m dst src size = .ok m') :
    SameOutside m m' := by
  obtain ⟨_, -, h⟩ := bind_eq_ok.mp h
  obtain ⟨_, hdst, h⟩ := bind_eq_ok.mp h
  have hin := within_eq_ok hdst
  simp only [Part.start, Part.size] at hin
  cases h
  exact fun a ha => memcpy_outside m dst src size (by omega)

theorem eraseCellsChecked_sameOutside {m m' : Bytes} {start : Int} {style : UInt8} {n : Nat}
    (h : eraseCellsChecked m start style n = .ok m') : SameOutside m m' := by
  obtain ⟨_, hcells, h⟩ := bind_eq_ok.mp h
  have hin := within_eq_ok hcells
  simp only [Part.start, Part.size] at hin
  cases h
  exact fun a ha => eraseCells_outside m start style n a (by omega)

theorem storeCellChecked_sameOutside {d g : Int} {ch : UInt8} (h : storeCellChecked s d g ch = .ok t) :
    SameOutside s.vidmem t.vidmem := by
  obtain ⟨_, hback, h⟩ := bind_eq_ok.mp h
  obtain ⟨_, hdisp, h⟩ := bind_eq_ok.mp h
  have hin := within_eq_ok hback
  have hin' := within_eq_ok hdisp
  simp only [Part.start, Part.size] at hin hin'
  cases h
  exact fun a ha => storeCell_outside s ch (by unfold BACKUP_ADDRESS VIDEO_ADDRESS at *; omega) (by omega)

theorem showLineChecked_sameOutside {line : Int} (h : showLineChecked s line = .ok t) :
    SameOutside s.vidmem t.vidmem := by
  obtain ⟨m, hcopy, h⟩ := bind_eq_ok.mp h
  cases h
  exact memcpyChecked_sameOutside hcopy

theorem scrollPageBackChecked_sameOutside (h : scrollPageBackChecked s = .ok t) : SameOutside s.vidmem t.vidmem := by
  unfold scrollPageBackChecked at h
  extract_lets line at h
  by_cases hshown : s.lineShow ≠ line
  · rw [if_pos hshown] at h
    exact showLineChecked_sameOutside h
  · rw [if_neg hshown] at h
    cases h
    exact .refl _

theorem scrollLineDownChecked_sameOutside (h : scrollLineDownChecked s = .ok t) : SameOutside s.vidmem t.vidmem := by
  -- both ways to the second half leave the same outside
  have hlast : ∀ {u : Screen}, SameOutside s.vidmem u.vidmem → ((if u.dispRow = 24 then do
      let m ← memcpyChecked u.vidmem VIDEO_ADDRESS (VIDEO_ADDRESS + 160) (24 * 160)
      let m ← eraseCellsChecked m (VIDEO_ADDRESS + 24 * 160) u.style 80
      return { u with
        vidmem := m
        lineShow := u.lineShow + 1 }
    else return { u with dispRow := u.dispRow + 1 }) : Except Stray Screen) = .ok t → SameOutside s.vidmem t.vidmem := by
    intro u hu h
    split at h
    · obtain ⟨m, hcopy, h⟩ := bind_eq_ok.mp h
      obtain ⟨m', herase, h⟩ := bind_eq_ok.mp h
      cases h
      exact hu.trans ((memcpyChecked_sameOutside hcopy).trans (eraseCellsChecked_sameOutside herase))
    · cases h
      exact hu
  unfold scrollLineDownChecked at h
  by_cases hfull : s.globRow + 1 = 175
  · simp only [if_pos hfull] at h
    obtain ⟨m, hevict, h⟩ := bind_eq_ok.mp h
    rw [pure_eq_ok, ok_bind] at h
    exact hlast (memcpyChecked_sameOutside hevict) h
  · simp only [if_neg hfull, pure_eq_ok, ok_bind] at h
    exact hlast (u := { s with column := 0, globRow := s.globRow + 1 }) (.refl _) h

theorem scrollLineUpChecked_sameOutside (h : scrollLineUpChecked s = .ok t) : SameOutside s.vidmem t.vidmem := by
  unfold scrollLineUpChecked at h
  split at h
  · obtain ⟨m, hcopy, h⟩ := bind_eq_ok.mp h
    cases h
    exact memcpyChecked_sameOutside hcopy
  · cases h
    exact .refl _

theorem putCharChecked_sameOutside {ch : UInt8} (h : putCharChecked s ch = .ok t) : SameOutside s.vidmem t.vidmem := by
  obtain ⟨u, hback, h⟩ := bind_eq_ok.mp h
  refine (scrollPageBackChecked_sameOutside hback).trans ?_
  split at h
  · exact scrollLineDownChecked_sameOutside h
  · obtain ⟨v, hcell, h⟩ := bind_eq_ok.mp h
    refine (storeCellChecked_sameOutside hcell).trans ?_
    dsimp only at h
    split at h
    · obtain ⟨w, hline, h⟩ := bind_eq_ok.mp h
      cases h
      have hkeeps := scrollLineDownChecked_sameOutside hline
      exact hkeeps
    · cases h
      exact .refl _

theorem delCharChecked_sameOutside (h : delCharChecked s = .ok t) : SameOutside s.vidmem t.vidmem := by
  obtain ⟨u, hback, h⟩ := bind_eq_ok.mp h
  refine (scrollPageBackChecked_sameOutside hback).trans ?_
  split at h
  · obtain ⟨v, hcell, h⟩ := bind_eq_ok.mp h
    refine (storeCellChecked_sameOutside hcell).trans ?_
    dsimp only at h
    split at h
    · obtain ⟨w, hline, h⟩ := bind_eq_ok.mp h
      cases h
      have hkeeps := scrollLineUpChecked_sameOutside hline
      exact hkeeps
    · cases h
      exact .refl _
  · cases h
    exact .refl _

/-- A call whose checks do not fail changes nothing outside video memory. -/
theorem stepChecked_sameOutside {op : Op} (h : stepChecked s op = .ok t) : SameOutside s.vidmem t.vidmem := by
  cases op with
  | putChar ch => exact putCharChecked_sameOutside h
  | delChar => exact delCharChecked_sameOutside h
  | setFontColor color =>
    cases h
    exact .refl _
  | clearScreen =>
    obtain ⟨m, herase, h⟩ := bind_eq_ok.mp h
    cases h
    exact eraseCellsChecked_sameOutside herase
  | scrollPageUp => exact showLineChecked_sameOutside h
  | scrollPageDown => exact showLineChecked_sameOutside h

end Keeps

/-! ## Runs -/

/-- The cursor is in bounds, and the shown line is at most 24 rows above the log: that far
    a page down goes while the page is not full. -/
structure ShowInBounds (s : Screen) : Prop where
  inBounds : InBounds s
  lineShow : -24 ≤ s.lineShow ∧ s.lineShow ≤ 150

/-- In bounds, no check of a call fails. -/
theorem stepChecked_ok {s : Screen} (h : ShowInBounds s) (op : Op) : stepChecked s op = .ok (step s op) := by
  have hg := h.inBounds.globRow_nonneg
  have hg' := h.inBounds.globRow_le
  have hline := h.lineShow
  cases op with
  | putChar ch => exact putCharChecked_ok h.inBounds ch
  | delChar => exact delCharChecked_ok h.inBounds
  | setFontColor color => rfl
  | clearScreen => exact clearScreenChecked_ok s
  | scrollPageUp => exact showLineChecked_ok s (by split <;> omega) (by split <;> omega)
  | scrollPageDown => exact showLineChecked_ok s (by split <;> omega) (by split <;> omega)

theorem showInBounds_clearScreen (s : Screen) : ShowInBounds (clearScreen s) := by
  have hline : (clearScreen s).lineShow = 0 := rfl
  refine ⟨clearScreen_inBounds s, ?_⟩
  rw [hline]
  decide

theorem home_bounds {s : Screen} (hb : InBounds s) : -24 ≤ s.home ∧ s.home ≤ 150 := by
  have hg := hb.globRow_le
  have hhome : s.home = max 0 (s.globRow - 24) := rfl
  omega

theorem showInBounds_putChar {s : Screen} (hb : InBounds s) (ch : UInt8) : ShowInBounds (putChar s ch) := by
  refine ⟨putChar_inBounds hb ch, ?_⟩
  rw [putChar_lineShow hb ch]
  exact home_bounds (putChar_inBounds hb ch)

theorem showInBounds_delChar {s : Screen} (hb : InBounds s) : ShowInBounds (delChar s) := by
  refine ⟨delChar_inBounds hb, ?_⟩
  rw [delChar_lineShow hb]
  exact home_bounds (delChar_inBounds hb)

/-- Every call keeps the bounds. -/
theorem step_showInBounds {s : Screen} (h : ShowInBounds s) (op : Op) : ShowInBounds (step s op) := by
  have hg := h.inBounds.globRow_nonneg
  have hg' := h.inBounds.globRow_le
  have hline := h.lineShow
  cases op with
  | putChar ch => exact showInBounds_putChar h.inBounds ch
  | delChar => exact showInBounds_delChar h.inBounds
  | setFontColor color => exact ⟨step_inBounds h.inBounds (.setFontColor color), hline⟩
  | clearScreen => exact showInBounds_clearScreen s
  | scrollPageUp =>
    refine ⟨step_inBounds h.inBounds .scrollPageUp, ?_⟩
    simp only [step, scrollPageUp, showLine]
    split <;> omega
  | scrollPageDown =>
    refine ⟨step_inBounds h.inBounds .scrollPageDown, ?_⟩
    simp only [step, scrollPageDown, showLine]
    split <;> omega

theorem run_showInBounds {s : Screen} (h : ShowInBounds s) (ops : List Op) :
    ShowInBounds (run step s ops) := by
  induction ops generalizing s with
  | nil => exact h
  | cons op ops ih => exact ih (step_showInBounds h op)

/-- After any run of calls from `clearScreen`, the cursor is in bounds, no access of the next call is
    outside its part of video memory, and nothing outside video memory changes. -/
theorem run_checked (s₀ : Screen) (ops : List Op) :
    let s := run step s₀.clearScreen ops
    (s.column % 2 = 0 ∧ 0 ≤ s.column ∧ s.column ≤ 158 ∧ 0 ≤ s.globRow ∧ s.globRow ≤ 174 ∧
      s.dispRow = min s.globRow 24) ∧
    ∀ op, stepChecked s op = .ok (step s op) ∧ SameOutside s.vidmem (step s op).vidmem := by
  have h := run_showInBounds (showInBounds_clearScreen s₀) ops
  have hb := h.inBounds
  refine ⟨⟨hb.column_even, hb.column_nonneg, hb.column_le, hb.globRow_nonneg, hb.globRow_le, hb.dispRow_eq⟩, fun op => ?_⟩
  have hstep := stepChecked_ok h op
  exact ⟨hstep, stepChecked_sameOutside hstep⟩

end SoreOS.Screen
