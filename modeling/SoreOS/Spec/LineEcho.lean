import SoreOS.Spec.LineEditor
import SoreOS.Spec.ScreenLog
import SoreOS.Spec.ScreenPaging

/-!
# The pending line on the screen

The keyboard driver echoes what it keeps in `tempBuffer`, and the screen driver
logs it. Numbered in reading order, the log cells between the place where the line
started and the cursor hold the pending line, whatever rows it covers and whatever
pages were looked at in between.

## Key results

- `putChar_logChar`, `delChar_logChar`: the two writing calls, on numbered cells
- `Reachable`: the states of the two drivers
- `Echoes`: the pending line is what the log shows from its start to the cursor
- `keyboard_echoes`: so it is after every sequence of keys
-/

namespace SoreOS

open ForStd

namespace Screen

/-! ## Cells in reading order -/

/-- The number of the cursor's cell in the log. -/
def cursorCell (s : Screen) : Int := s.globRow * 80 + s.column / 2

/-- The character of a log cell. -/
def logChar (s : Screen) (i : Int) : UInt8 := s.vidmem (BACKUP_ADDRESS + 2 * i)

theorem logChar_eq (s : Screen) (i : Int) : s.logChar i = s.backChar 0 i := by
  rw [logChar, backChar, Int.zero_mul, Int.add_zero]

theorem backChar_eq (s : Screen) (r c : Int) : s.backChar r c = s.logChar (r * 80 + c) := by
  rw [logChar, backChar]
  congr 1
  omega

variable {s : Screen}

/-- A character that evicts nothing moves the cursor to the next cell, also at the end of
    a row. -/
theorem putChar_cursorCell {ch : UInt8} (hch : ch ≠ NEWLINE) (hev : s.globRow < 174 ∨ s.column ≠ 158) :
    (s.putChar ch).cursorCell = s.cursorCell + 1 := by
  rw [cursorCell, cursorCell, putChar_globRow hch hev, putChar_column hch]
  split <;> omega

theorem putChar_logChar (hb : InBounds s) {ch : UInt8} (hch : ch ≠ NEWLINE)
    (hev : s.globRow < 174 ∨ s.column ≠ 158) {i : Int} (hi : 0 ≤ i) :
    (s.putChar ch).logChar i = if i = s.cursorCell then ch else s.logChar i := by
  have heven := hb.column_even
  have hcell : (0 * 160 + 2 * i = s.globRow * 160 + s.column) ↔ i = s.cursorCell := by
    rw [cursorCell]
    omega
  rw [logChar_eq, backChar_putChar hb hch hev (Int.le_refl 0) hi, logChar_eq]
  simp only [hcell]

/-- Away from the first cell of the log `delChar` has a character to delete. -/
theorem two_le_of_cursorCell (hb : InBounds s) (h : 0 < s.cursorCell) : 2 ≤ s.dispRow * 160 + s.column := by
  have heven := hb.column_even
  have hnonneg := hb.column_nonneg
  have hrow := hb.globRow_nonneg
  have hd := hb.dispRow_eq
  rw [cursorCell] at h
  omega

/-- `delChar` moves the cursor to the cell before, also at the start of a row. -/
theorem delChar_cursorCell (hb : InBounds s) (h : 0 < s.cursorCell) :
    s.delChar.cursorCell = s.cursorCell - 1 := by
  have heven := hb.column_even
  have hnonneg := hb.column_nonneg
  rw [delChar_char s (two_le_of_cursorCell hb h), cursorCell, cursorCell, erased_column]
  split
  · -- from column 0 the cursor goes to the end of the row above
    rw [updateCursor_globRow, updateCursor_column, scrollLineUp_globRow, scrollLineUp_column, erased_globRow]
    omega
  · rw [updateCursor_globRow, updateCursor_column, erased_globRow, erased_column]
    omega

theorem delChar_logChar (hb : InBounds s) (h : 0 < s.cursorCell) {i : Int} (hi : 0 ≤ i) :
    s.delChar.logChar i = if i = s.cursorCell - 1 then 0 else s.logChar i := by
  have heven := hb.column_even
  have hcol := hb.column_le
  have hd := hb.dispRow_eq
  have hgoes := two_le_of_cursorCell hb h
  have hcell : (0 * 160 + 2 * i = s.globRow * 160 + s.column - 2) ↔ i = s.cursorCell - 1 := by
    rw [cursorCell]
    omega
  have herased : s.erased.backChar 0 i = if i = s.cursorCell - 1 then 0 else s.backChar 0 i := by
    have hstore := backChar_storeCell s.scrollPageBack (d := s.dispRow * 160 + s.column - 2)
      (g := s.globRow * 160 + s.column - 2) 0 (by omega) (by omega) (Int.le_refl 0) hi
    rw [backChar_scrollPageBack s (Int.le_refl 0) hi] at hstore
    simp only [hcell] at hstore
    exact hstore
  rw [delChar_char s hgoes, logChar_eq, logChar_eq]
  split
  · exact (backChar_scrollLineUp _ (Int.le_refl 0) hi).trans herased
  · exact herased

theorem showLine_logChar (s : Screen) (line : Int) {i : Int} (hi : 0 ≤ i) :
    (s.showLine line).logChar i = s.logChar i := backup_showLine s line (by omega)

/-- The cells from the cursor on are blank, in reading order. -/
theorem Blank.logChar (hb : InBounds s) (h : Blank s) {i : Int} (hi : s.cursorCell ≤ i) (hi' : i < 175 * 80) :
    s.logChar i = 0 := by
  have heven := hb.column_even
  have hnonneg := hb.column_nonneg
  have hrow := hb.globRow_nonneg
  rw [cursorCell] at hi
  have hcell : i / 80 * 80 + i % 80 = i := by omega
  have hblank := h (i / 80) (i % 80) (by omega) (by omega) (by omega) (by omega) (by omega)
  rw [backChar_eq, hcell] at hblank
  exact hblank

end Screen

namespace Keyboard

open Screen

/-! ## What a key does to the screen -/

/-- The calls of the screen driver a key leads to. -/
def keyCalls (k : Keyboard) : Key → Bool → List Op
  | .char plain shifted, true => [.putChar (if k.shifting then shifted else plain)]
  | .pageUp, true => [.scrollPageUp]
  | .pageDown, true => [.scrollPageDown]
  | .backspace, true => if k.io.tempIndex > 0 then [.delChar] else []
  | .enter, true => [.putChar NEWLINE]
  | _, _ => []

@[simp] theorem keyCalls_backspace (k : Keyboard) :
    k.keyCalls .backspace true = if k.io.tempIndex > 0 then [.delChar] else [] := rfl

/-- The calls of the screen driver an interrupt leads to. -/
def interruptCalls (k : Keyboard) (p : UInt8 × UInt8) : List Op :=
  if p.1 &&& 0x01 ≠ 0 then k.keyCalls (keyOf (p.2 &&& 0x7F)) (p.2 &&& 0x80 = KEY_DOWN) else []

variable {k k' : Keyboard}

theorem typeChar_screen {c : UInt8} (h : typeChar k c = .ok k') : k'.screen = k.screen.putChar c := by
  obtain ⟨m, -, hk⟩ := bind_eq_ok.mp h
  rw [← Except.ok.inj hk]

theorem deletePending_screen (h : deletePending k = .ok k') :
    k'.screen = if k.io.tempIndex > 0 then k.screen.delChar else k.screen := by
  rw [deletePending] at h
  split at h
  · rename_i hpending
    obtain ⟨m, -, hk⟩ := bind_eq_ok.mp h
    rw [if_pos hpending, ← Except.ok.inj hk]
  · rename_i hempty
    rw [if_neg hempty, ← Except.ok.inj h]

theorem commitLine_screen (h : commitLine k = .ok k') : k'.screen = k.screen.putChar NEWLINE := by
  obtain ⟨m, -, hrest⟩ := bind_eq_ok.mp h
  obtain ⟨m', -, hk⟩ := bind_eq_ok.mp hrest
  rw [← Except.ok.inj hk]

/-- A key changes the screen by its calls only. -/
theorem pressKey_screen {key : Key} {down : Bool} (h : pressKey k key down = .ok k') :
    k'.screen = run step k.screen (k.keyCalls key down) := by
  have hsame : ∀ k₁ : Keyboard, (.ok k₁ : Except Fault Keyboard) = .ok k' → k₁.screen = k.screen →
      k'.screen = k.screen := fun k₁ hk hscreen => Except.ok.inj hk ▸ hscreen
  cases key with
  | lshift => exact hsame _ h rfl
  | rshift => exact hsame _ h rfl
  | other => cases down <;> exact hsame _ h rfl
  | capsLock => cases down <;> exact hsame _ h rfl
  | pageUp =>
    cases down with
    | false => exact hsame _ h rfl
    | true => rw [← Except.ok.inj h]; rfl
  | pageDown =>
    cases down with
    | false => exact hsame _ h rfl
    | true => rw [← Except.ok.inj h]; rfl
  | char plain shifted =>
    cases down with
    | false => exact hsame _ h rfl
    | true => exact typeChar_screen h
  | backspace =>
    cases down with
    | false => exact hsame _ h rfl
    | true =>
      rw [deletePending_screen h, keyCalls_backspace]
      split <;> rfl
  | enter =>
    cases down with
    | false => exact hsame _ h rfl
    | true => exact commitLine_screen h

/-- Beyond the tables the handler has no character to look up. -/
theorem knownCode_of_ok {p : UInt8 × UInt8} (hstatus : p.1 &&& 0x01 ≠ 0) (h : k.interrupt p = .ok k') :
    KnownCode p.2 := by
  rw [interrupt, keyboardHandler, if_pos hstatus] at h
  obtain ⟨c, hchar, -⟩ := bind_eq_ok.mp h
  rw [keyChar] at hchar
  rw [KnownCode]
  split at hchar
  · -- both tables end at `0x5A`
    obtain ⟨-, hlt, -⟩ := load_eq_ok hchar
    simp only [Obj.size] at hlt
    omega
  · obtain ⟨-, hlt, -⟩ := load_eq_ok hchar
    simp only [Obj.size] at hlt
    omega

/-- So does an interrupt. -/
theorem interrupt_screen {p : UInt8 × UInt8} (h : k.interrupt p = .ok k') :
    k'.screen = run step k.screen (k.interruptCalls p) := by
  rw [interruptCalls]
  by_cases hstatus : p.1 &&& 0x01 ≠ 0
  · have hcode := knownCode_of_ok hstatus h
    rw [interrupt, keyboardHandler_key k hstatus hcode] at h
    rw [if_pos hstatus]
    exact pressKey_screen h
  · rw [interrupt, keyboardHandler, if_neg hstatus] at h
    rw [if_neg hstatus, ← Except.ok.inj h]
    rfl

/-! ## Reachable states -/

/-- The states the two drivers can be in, with the information whether history was evicted
    since the last `clearScreen`: from a cleared screen on, keys are handled, programs
    print, and the input queue is read or cleared. -/
inductive Reachable : Keyboard → Bool → Prop where
  | clear (k : Keyboard) : Reachable { k with screen := k.screen.clearScreen } false
  | key {k k' : Keyboard} {evicted : Bool} (h : Reachable k evicted) (p : UInt8 × UInt8)
      (hrun : k.interrupt p = .ok k') : Reachable k' (run trackStep (k.screen, evicted) (k.interruptCalls p)).2
  | output {k : Keyboard} {evicted : Bool} (h : Reachable k evicted) (op : Op) :
      Reachable { k with screen := k.screen.step op } (trackStep (k.screen, evicted) op).2
  | input {k : Keyboard} {evicted : Bool} (h : Reachable k evicted) (inputIndex : Int) (inputBuffer : Bytes) :
      Reachable { k with io := { k.io with inputIndex := inputIndex, inputBuffer := inputBuffer } } evicted

/-- What the screen keeps while its calls are tracked. -/
structure Tracked (p : Screen × Bool) : Prop where
  inBounds : InBounds p.1
  paged : p.2 = false → Paged p.1

theorem Tracked.step {p : Screen × Bool} (h : Tracked p) (op : Op) : Tracked (trackStep p op) :=
  ⟨step_inBounds h.inBounds op, paged_trackStep h.inBounds h.paged⟩

theorem Tracked.run {p : Screen × Bool} (h : Tracked p) (ops : List Op) : Tracked (run trackStep p ops) := by
  induction ops generalizing p with
  | nil => exact h
  | cons op ops ih => exact ih (h.step op)

theorem Reachable.tracked {evicted : Bool} (h : Reachable k evicted) : Tracked (k.screen, evicted) := by
  induction h with
  | clear k =>
    obtain ⟨hset, hblank⟩ := settled_clearScreen k.screen
    exact ⟨clearScreen_inBounds k.screen, fun _ => hset.paged hblank⟩
  | @key k k' evicted h p hrun ih =>
    -- an interrupt is at most one call of the screen driver
    rw [interrupt_screen hrun, ← trackStep_run_fst (k.screen, evicted)]
    exact ih.run (k.interruptCalls p)
  | output h op ih => exact ih.step op
  | input h inputIndex inputBuffer ih => exact ih

/-! ## The echo -/

/-- The line started on the screen `s`: the log shows the pending line from there to the
    cursor, what it showed before the line is as it was, and the rest is blank. -/
structure Echoes (s : Screen) (k : Keyboard) : Prop where
  count : k.screen.cursorCell = s.cursorCell + k.io.tempIndex
  line : ∀ i, 0 ≤ i → i < k.io.tempIndex → k.screen.logChar (s.cursorCell + i) = k.io.tempBuffer i
  before : ∀ i, 0 ≤ i → i < s.cursorCell → k.screen.logChar i = s.logChar i
  blank : ∀ i, k.screen.cursorCell ≤ i → i < 175 * 80 → k.screen.logChar i = 0

/-- The press of the Enter key. -/
def EnterPress (p : UInt8 × UInt8) : Prop :=
  p.1 &&& 0x01 ≠ 0 ∧ p.2 &&& 0x7F = KEY_ENTER ∧ p.2 &&& 0x80 = KEY_DOWN

/-- An interrupt that edits the pending line: not Enter, and a character has a place in
    `tempBuffer` and does not bring `globRow` to 175. -/
structure Edits (k : Keyboard) (p : UInt8 × UInt8) : Prop where
  known : KnownCode p.2
  noEnter : ¬ EnterPress p
  room : ∀ ch, .putChar ch ∈ k.interruptCalls p → k.io.tempIndex < 2048 ∧ evicts k.screen (.putChar ch) = false

/-- `Echoes`, with what the drivers keep. -/
structure Echoing (s : Screen) (k : Keyboard) : Prop where
  inBounds : InBounds k.screen
  paged : Paged k.screen
  start : 0 ≤ s.cursorCell
  tempIndex_nonneg : 0 ≤ k.io.tempIndex
  tempIndex_le : k.io.tempIndex ≤ 2048
  count : k.screen.cursorCell = s.cursorCell + k.io.tempIndex
  line : ∀ i, 0 ≤ i → i < k.io.tempIndex → k.screen.logChar (s.cursorCell + i) = k.io.tempBuffer i
  before : ∀ i, 0 ≤ i → i < s.cursorCell → k.screen.logChar i = s.logChar i

namespace Echoing

variable {s : Screen} (h : Echoing s k)
include h

theorem echoes : Echoes s k where
  count := h.count
  line := h.line
  before := h.before
  blank _ hi hi' := h.paged.blank.logChar h.inBounds hi hi'

/-- Keys that change neither the line nor the screen. -/
theorem congr (hio : k'.io = k.io) (hscreen : k'.screen = k.screen) : Echoing s k' := by
  obtain ⟨hb, hpaged, hstart, hnonneg, hle, hcount, hline, hbefore⟩ := h
  rw [← hscreen] at hb hpaged
  rw [← hio] at hnonneg hle
  rw [← hio, ← hscreen] at hcount hline
  rw [← hscreen] at hbefore
  exact ⟨hb, hpaged, hstart, hnonneg, hle, hcount, hline, hbefore⟩

/-- Looking at another page. -/
theorem showLine (line : Int) : Echoing s { k with screen := k.screen.showLine line } where
  inBounds := showLine_inBounds h.inBounds line
  paged := h.paged.showLine line
  start := h.start
  tempIndex_nonneg := h.tempIndex_nonneg
  tempIndex_le := h.tempIndex_le
  count := h.count
  line i hi hi' := by
    have hstart := h.start
    exact (showLine_logChar k.screen line (by omega)).trans (h.line i hi hi')
  before i hi hi' := (showLine_logChar k.screen line hi).trans (h.before i hi hi')

/-- A typed character goes to the end of `tempBuffer` and to the cursor's cell. -/
theorem typeChar {c : UInt8} (hc : c ≠ NEWLINE) (hroom : k.io.tempIndex < 2048)
    (hev : evicts k.screen (.putChar c) = false) : ∃ k', Keyboard.typeChar k c = .ok k' ∧ Echoing s k' := by
  have hb := h.inBounds
  have hstart := h.start
  have hnonneg := h.tempIndex_nonneg
  have hcount := h.count
  -- the character does not end row 174, so its cell is in the log to stay
  have hstays : k.screen.globRow < 174 ∨ k.screen.column ≠ 158 := (not_evicts hb hev).imp_right And.right
  have hstore := store_ok (o := .tempBuffer) k.io.tempBuffer c hnonneg (by simpa only [Obj.size] using hroom)
  rw [Keyboard.typeChar]
  dsimp only
  rw [hstore]
  refine ⟨_, rfl, putChar_inBounds hb c, h.paged.step hb hev, hstart, ?_, ?_, ?_, ?_, ?_⟩
  · exact Int.le_add_one hnonneg
  · exact hroom
  · dsimp only
    rw [putChar_cursorCell hc hstays, hcount, Int.add_assoc]
  · intro i hi hi'
    dsimp only at hi' ⊢
    rw [putChar_logChar hb hc hstays (by omega), Mem.set]
    -- the new character, or one that was there before
    by_cases hlast : i = k.io.tempIndex
    · rw [if_pos (by omega), if_pos hlast]
    · rw [if_neg (by omega), if_neg hlast]
      exact h.line i hi (by omega)
  · intro i hi hi'
    dsimp only
    rw [putChar_logChar hb hc hstays hi, if_neg (by omega)]
    exact h.before i hi hi'

/-- Backspace deletes the end of `tempBuffer` and the cell before the cursor, and stops
    where the line started. -/
theorem deletePending : ∃ k', Keyboard.deletePending k = .ok k' ∧ Echoing s k' := by
  have hb := h.inBounds
  have hstart := h.start
  have hle := h.tempIndex_le
  have hcount := h.count
  rw [Keyboard.deletePending]
  by_cases hpending : k.io.tempIndex > 0
  · -- the start is at a cell of the log, so the cursor is not at the first one
    have hcell : 0 < k.screen.cursorCell := by omega
    have hstore := store_ok (o := .tempBuffer) (i := k.io.tempIndex - 1) k.io.tempBuffer 0 (by omega)
      (by simp only [Obj.size]; omega)
    rw [if_pos hpending]
    dsimp only
    rw [hstore]
    refine ⟨_, rfl, delChar_inBounds hb, @Paged.step k.screen hb h.paged .delChar rfl, hstart, ?_, ?_, ?_, ?_, ?_⟩
    · exact Int.le_sub_one_of_lt hpending
    · dsimp only
      omega
    · dsimp only
      rw [delChar_cursorCell hb hcell, hcount, Int.add_sub_assoc]
    · intro i hi hi'
      dsimp only at hi' ⊢
      -- the line in front of the deleted character
      rw [delChar_logChar hb hcell (by omega), if_neg (by omega), Mem.set_other _ _ (by omega)]
      exact h.line i hi (by omega)
    · intro i hi hi'
      dsimp only
      rw [delChar_logChar hb hcell hi, if_neg (by omega)]
      exact h.before i hi hi'
  · rw [if_neg hpending]
    exact ⟨k, rfl, h⟩

/-- Every key but Enter keeps the echo, if there is room for its character. -/
theorem pressKey {key : Key} {down : Bool} (hne : ¬ (key = .enter ∧ down = true))
    (hc : ∀ ch, .putChar ch ∈ k.keyCalls key down → ch ≠ NEWLINE)
    (hroom : ∀ ch, .putChar ch ∈ k.keyCalls key down →
      k.io.tempIndex < 2048 ∧ evicts k.screen (.putChar ch) = false) :
    ∃ k', Keyboard.pressKey k key down = .ok k' ∧ Echoing s k' := by
  have hsame : ∃ k', (.ok k : Except Fault Keyboard) = .ok k' ∧ Echoing s k' := ⟨k, rfl, h⟩
  cases key with
  | lshift => exact ⟨_, rfl, h.congr rfl rfl⟩
  | rshift => exact ⟨_, rfl, h.congr rfl rfl⟩
  | other => cases down <;> exact hsame
  | capsLock =>
    cases down with
    | false => exact hsame
    | true => exact ⟨_, rfl, h.congr rfl rfl⟩
  | pageUp =>
    cases down with
    | false => exact hsame
    | true => exact ⟨_, rfl, h.showLine _⟩
  | pageDown =>
    cases down with
    | false => exact hsame
    | true => exact ⟨_, rfl, h.showLine _⟩
  | backspace =>
    cases down with
    | false => exact hsame
    | true => exact h.deletePending
  | enter =>
    cases down with
    | false => exact hsame
    | true => exact absurd ⟨rfl, rfl⟩ hne
  | char plain shifted =>
    cases down with
    | false => exact hsame
    | true =>
      -- the only key that types
      have hmem := List.mem_singleton_self (Op.putChar (if k.shifting then shifted else plain))
      obtain ⟨hfits, hev⟩ := hroom _ hmem
      exact h.typeChar (hc _ hmem) hfits hev

end Echoing

theorem keyOf_char {code plain shifted : UInt8} (h : keyOf code = .char plain shifted) :
    plain = table normCharset code.toNat ∧ shifted = table shiftCharset code.toNat := by
  unfold keyOf at h
  split_ifs at h
  injection h with hplain hshifted
  exact ⟨hplain.symm, hshifted.symm⟩

theorem keyOf_enter {code : UInt8} (h : keyOf code = .enter) : code = KEY_ENTER := by
  unfold keyOf at h
  split_ifs at h
  assumption

/-- Only Enter puts a newline on the screen. -/
theorem keyCalls_ne_newline {code : UInt8} {down : Bool} (hcode : code.toNat < 90)
    (hne : ¬ (keyOf code = .enter ∧ down = true)) {ch : UInt8}
    (hmem : .putChar ch ∈ k.keyCalls (keyOf code) down) : ch ≠ NEWLINE := by
  cases down with
  | false => cases hkey : keyOf code <;> rw [hkey] at hmem <;> exact nomatch hmem
  | true =>
    cases hkey : keyOf code with
    | char plain shifted =>
      obtain ⟨hplain, hshifted⟩ := keyOf_char hkey
      obtain ⟨hnorm, hshift⟩ := table_ne_newline code.toNat hcode
      rw [hkey] at hmem
      obtain ⟨rfl⟩ := List.mem_singleton.mp hmem
      split
      · rw [hshifted]
        exact hshift
      · rw [hplain]
        exact hnorm
    | enter => exact absurd ⟨hkey, rfl⟩ hne
    | backspace =>
      rw [hkey, keyCalls_backspace] at hmem
      split at hmem
      · exact nomatch List.mem_singleton.mp hmem
      · exact nomatch hmem
    | pageUp => rw [hkey] at hmem; exact nomatch List.mem_singleton.mp hmem
    | pageDown => rw [hkey] at hmem; exact nomatch List.mem_singleton.mp hmem
    | _ => rw [hkey] at hmem; exact nomatch hmem

/-- An interrupt that edits the line keeps the echo. -/
theorem Echoing.interrupt {s : Screen} (h : Echoing s k) {p : UInt8 × UInt8} (hedits : Edits k p) :
    ∃ k', k.interrupt p = .ok k' ∧ Echoing s k' := by
  have hroom := hedits.room
  rw [Keyboard.interrupt]
  rw [interruptCalls] at hroom
  by_cases hstatus : p.1 &&& 0x01 ≠ 0
  · have hne : ¬ (keyOf (p.2 &&& 0x7F) = .enter ∧ decide (p.2 &&& 0x80 = KEY_DOWN) = true) := by
      intro hgiven
      obtain ⟨hkey, hdown⟩ := hgiven
      exact hedits.noEnter ⟨hstatus, keyOf_enter hkey, of_decide_eq_true hdown⟩
    rw [if_pos hstatus] at hroom
    rw [keyboardHandler_key k hstatus hedits.known]
    exact h.pressKey hne (fun ch hmem => keyCalls_ne_newline hedits.known hne hmem) hroom
  · rw [keyboardHandler, if_neg hstatus]
    exact ⟨k, rfl, h⟩

/-- With no pending line there is nothing to show. -/
theorem Reachable.echoing (h : Reachable k false) (hempty : k.io.tempIndex = 0) : Echoing k.screen k := by
  have htracked := h.tracked
  have hb : InBounds k.screen := htracked.inBounds
  have hrow := hb.globRow_nonneg
  have hcol := hb.column_nonneg
  refine ⟨hb, htracked.paged rfl, ?_, ?_, ?_, ?_, ?_, fun _ _ _ => rfl⟩
  · rw [cursorCell]
    omega
  · omega
  · omega
  · omega
  · intro i hi hi'
    omega

/-- From every reachable state with no pending line and all of its history, whatever keys
    edit the line, page or shift: the log shows `tempBuffer` from the starting cell to the
    cursor, the same characters before it, and blanks after it. -/
theorem keyboard_echoes (k : Keyboard) (hreach : Reachable k false) (hempty : k.io.tempIndex = 0)
    (es : List (UInt8 × UInt8)) (hedits : StepsOk interrupt Edits k es) :
    ∃ k', es.foldlM interrupt k = .ok k' ∧ Echoes k.screen k' := by
  obtain ⟨k', hrun, hecho⟩ := hedits.run_ok (fun _ _ h he => Echoing.interrupt h he) (hreach.echoing hempty)
  exact ⟨k', hrun, hecho.echoes⟩

/-- An `a`, a look at the page above, and Backspace. -/
theorem keyboard_echoes_deleted :
    let k : Keyboard := { screen := Screen.clearScreen { vidmem := fun _ => 0 } }
    ∃ k', [(1, 0x1E), (1, 0x49), (1, 0x0E)].foldlM interrupt k = .ok k' ∧ Echoes k.screen k' := by
  intro k
  refine keyboard_echoes k (.clear { screen := { vidmem := fun _ => 0 } }) rfl _ ?_
  refine ⟨⟨by decide, fun h => absurd h.2.1 (by decide), fun ch hmem => ?_⟩, fun k₁ h₁ => ?_⟩
  · obtain ⟨rfl⟩ := List.mem_singleton.mp hmem
    exact ⟨by decide, rfl⟩
  obtain rfl := Except.ok.inj h₁
  refine ⟨⟨by decide, fun h => absurd h.2.1 (by decide), fun ch hmem => ?_⟩, fun k₂ h₂ => ?_⟩
  · exact nomatch List.mem_singleton.mp hmem
  obtain rfl := Except.ok.inj h₂
  refine ⟨⟨by decide, fun h => absurd h.2.1 (by decide), fun ch hmem => ?_⟩, fun k₃ h₃ => trivial⟩
  exact nomatch List.mem_singleton.mp hmem

end Keyboard

end SoreOS
