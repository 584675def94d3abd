import SoreOS.Spec.ScreenHistory
import SoreOS.ForStd.Run

/-!
# Paging is transparent

A run of screen calls and the same run without its paging calls end with the
same cursor and the same log. As long as the log has not been evicted, the
display page is a function of the log again as soon as something is written.

## Key results

- `SameLog`: the part of the screen that paging must not influence
- `Alike`: the relation between the two runs
- `paging_transparent`: the two runs compared
-/

namespace SoreOS.Screen

open ForStd

/-! ## Calls and runs -/

/-- A call to the screen driver. -/
inductive Op where
  | putChar (ch : UInt8)
  | delChar
  | setFontColor (color : UInt8)
  | clearScreen
  | scrollPageUp
  | scrollPageDown
  deriving DecidableEq, Repr

/-- What a call does. -/
def step (s : Screen) : Op → Screen
  | .putChar ch => putChar s ch
  | .delChar => delChar s
  | .setFontColor color => setFontColor s color
  | .clearScreen => clearScreen s
  | .scrollPageUp => scrollPageUp s
  | .scrollPageDown => scrollPageDown s

/-- The two calls that page through the history. -/
def Op.isPaging : Op → Bool
  | .scrollPageUp | .scrollPageDown => true
  | _ => false

/-- The two calls that write text. -/
def Op.isWrite : Op → Bool
  | .putChar _ | .delChar => true
  | _ => false

/-- The call makes `globRow` reach 175, which evicts the oldest page. -/
def evicts (s : Screen) : Op → Bool
  | .putChar ch => s.globRow = 174 && (ch = NEWLINE || s.column = 158)
  | _ => false

/-- The screen, and whether history was evicted since the last `clearScreen`. -/
def trackStep (p : Screen × Bool) (op : Op) : Screen × Bool :=
  (step p.1 op, if op = .clearScreen then false else p.2 || evicts p.1 op)

/-- History was evicted since the last `clearScreen` of the run. -/
def evictedSinceClear (s : Screen) (ops : List Op) : Bool := (run trackStep (s, false) ops).2

theorem trackStep_run_fst (p : Screen × Bool) (ops : List Op) :
    (run trackStep p ops).1 = run step p.1 ops := by
  induction ops generalizing p with
  | nil => rfl
  | cons op ops ih => exact ih (trackStep p op)

/-! ## The part of the screen that paging leaves alone -/

/-- The two screens have the same style, counters and log. They may differ in
    `lineShow` and on the display page. -/
structure SameLog (s t : Screen) : Prop where
  style : s.style = t.style
  column : s.column = t.column
  dispRow : s.dispRow = t.dispRow
  globRow : s.globRow = t.globRow
  backup : ∀ a, BACKUP_ADDRESS ≤ a → s.vidmem a = t.vidmem a

namespace SameLog

theorem refl (s : Screen) : SameLog s s := ⟨rfl, rfl, rfl, rfl, fun _ _ => rfl⟩

variable {s t : Screen}

theorem home_eq (h : SameLog s t) : s.home = t.home := by
  simp only [home, h.globRow]

theorem showLine_left (h : SameLog s t) (line : Int) : SameLog (showLine s line) t :=
  ⟨h.style, h.column, h.dispRow, h.globRow, fun a ha =>
    (backup_showLine s line ha).trans (h.backup a ha)⟩

theorem scrollPageBack (h : SameLog s t) : SameLog s.scrollPageBack t.scrollPageBack where
  style := by simpa using h.style
  column := by simpa using h.column
  dispRow := by simpa using h.dispRow
  globRow := by simpa using h.globRow
  backup a ha := by
    rw [backup_scrollPageBack s ha, backup_scrollPageBack t ha]
    exact h.backup a ha

theorem updateCursor (h : SameLog s t) : SameLog s.updateCursor t.updateCursor :=
  ⟨h.style, h.column, h.dispRow, h.globRow, h.backup⟩

theorem scrollLineDown (h : SameLog s t) : SameLog s.scrollLineDown t.scrollLineDown where
  style := by simpa using h.style
  column := by simp
  dispRow := by rw [scrollLineDown_dispRow, scrollLineDown_dispRow, h.dispRow]
  globRow := by rw [scrollLineDown_globRow, scrollLineDown_globRow, h.globRow]
  backup a ha := by
    rw [backup_scrollLineDown s ha, backup_scrollLineDown t ha, h.globRow, h.backup a ha,
      h.backup (a + 4000) (by omega)]

theorem scrollLineUp (h : SameLog s t) : SameLog s.scrollLineUp t.scrollLineUp where
  style := by simpa using h.style
  column := by simp
  dispRow := by rw [scrollLineUp_dispRow, scrollLineUp_dispRow, h.dispRow, h.globRow]
  globRow := by rw [scrollLineUp_globRow, scrollLineUp_globRow, h.globRow]
  backup a ha := by
    rw [backup_scrollLineUp s ha, backup_scrollLineUp t ha]
    exact h.backup a ha

theorem storeCell (h : SameLog s t) {d : Int} (g : Int) (ch : UInt8) (hd : d + 1 < 4000) :
    SameLog (s.storeCell d g ch) (t.storeCell d g ch) where
  style := h.style
  column := h.column
  dispRow := h.dispRow
  globRow := h.globRow
  backup a ha := by
    rw [backup_storeCell s g ch hd ha, backup_storeCell t g ch hd ha, h.style, h.backup a ha]

theorem typed (h : SameLog s t) (hb : InBounds s) (ch : UInt8) :
    SameLog (s.typed ch) (t.typed ch) := by
  have hd := hb.dispRow_eq
  have hc := hb.column_le
  have hs := h.scrollPageBack.storeCell (d := s.dispRow * 160 + s.column)
    (s.globRow * 160 + s.column) ch (by omega)
  simp only [Screen.typed, ← h.dispRow, ← h.globRow, ← h.column]
  exact ⟨hs.style, by simp [h.column], hs.dispRow, hs.globRow, hs.backup⟩

theorem erased (h : SameLog s t) (hb : InBounds s) : SameLog s.erased t.erased := by
  have hd := hb.dispRow_eq
  have hc := hb.column_le
  have hs := h.scrollPageBack.storeCell (d := s.dispRow * 160 + s.column - 2)
    (s.globRow * 160 + s.column - 2) 0 (by omega)
  simp only [Screen.erased, ← h.dispRow, ← h.globRow, ← h.column]
  exact ⟨hs.style, by simp [h.column], hs.dispRow, hs.globRow, hs.backup⟩

theorem putChar (h : SameLog s t) (hb : InBounds s) (ch : UInt8) :
    SameLog (s.putChar ch) (t.putChar ch) := by
  by_cases hch : ch = NEWLINE
  · subst hch
    rw [putChar_newline, putChar_newline]
    exact h.scrollPageBack.scrollLineDown
  · have ht := h.typed hb ch
    rw [putChar_char s hch, putChar_char t hch, ht.column]
    split
    · exact ht.scrollLineDown.updateCursor
    · exact ht.updateCursor

theorem delChar (h : SameLog s t) (hb : InBounds s) : SameLog s.delChar t.delChar := by
  by_cases horg : s.dispRow * 160 + s.column < 2
  · rw [delChar_origin s horg, delChar_origin t (by rw [← h.dispRow, ← h.column]; exact horg)]
    exact h.scrollPageBack
  · have he := h.erased hb
    rw [delChar_char s (by omega), delChar_char t (by rw [← h.dispRow, ← h.column]; omega),
      he.column]
    split
    · exact he.scrollLineUp.updateCursor
    · exact he.updateCursor

theorem setFontColor (h : SameLog s t) (color : UInt8) :
    SameLog (s.setFontColor color) (t.setFontColor color) :=
  ⟨by simp only [Screen.setFontColor, h.style], h.column, h.dispRow, h.globRow, h.backup⟩

/-- Erasing treats equal cells equally. -/
theorem eraseCells_congr {m m' : Bytes} (start : Int) (style : UInt8) (n : Nat) {a : Int}
    (h : m a = m' a) : eraseCells m start style n a = eraseCells m' start style n a := by
  induction n with
  | zero => exact h
  | succ n ih => simp only [eraseCells, Mem.set, ih]

theorem clearScreen (h : SameLog s t) : SameLog s.clearScreen t.clearScreen where
  style := h.style
  column := rfl
  dispRow := rfl
  globRow := rfl
  backup a ha := by
    have hstyle : s.clearScreen.vidmem = eraseCells s.vidmem VIDEO_ADDRESS t.style (8 * 80 * 25) := by
      rw [← h.style]; rfl
    rw [hstyle]
    exact eraseCells_congr _ _ _ (h.backup a ha)

/-- Every call but paging treats two such screens alike. -/
theorem step (h : SameLog s t) (hb : InBounds s) {op : Op} (hop : op.isPaging = false) :
    SameLog (s.step op) (t.step op) := by
  cases op with
  | putChar ch => exact h.putChar hb ch
  | delChar => exact h.delChar hb
  | setFontColor color => exact h.setFontColor color
  | clearScreen => exact h.clearScreen
  | scrollPageUp => simp [Op.isPaging] at hop
  | scrollPageDown => simp [Op.isPaging] at hop

/-- Paging one of the two keeps them alike. -/
theorem step_paging (h : SameLog s t) {op : Op} (hop : op.isPaging = true) :
    SameLog (s.step op) t := by
  cases op with
  | scrollPageUp => exact h.showLine_left _
  | scrollPageDown => exact h.showLine_left _
  | _ => simp [Op.isPaging] at hop

end SameLog

theorem step_inBounds {s : Screen} (h : InBounds s) (op : Op) : InBounds (s.step op) := by
  cases op with
  | putChar ch => exact putChar_inBounds h ch
  | delChar => exact delChar_inBounds h
  | setFontColor color => exact setFontColor_inBounds h color
  | clearScreen => exact clearScreen_inBounds s
  | scrollPageUp => exact showLine_inBounds h _
  | scrollPageDown => exact showLine_inBounds h _

/-! ## Paging and the display page -/

/-- A character that evicts nothing is written above row 174, or stays in its row. -/
theorem not_evicts {s : Screen} (hb : InBounds s) {ch : UInt8}
    (hev : evicts s (.putChar ch) = false) :
    s.globRow < 174 ∨ ch ≠ NEWLINE ∧ s.column ≠ 158 := by
  have hg := hb.globRow_le
  simp only [evicts, Bool.and_eq_false_iff, Bool.or_eq_false_iff, decide_eq_false_iff_not] at hev
  obtain hrow | hstay := hev
  · exact .inl (by omega)
  · exact .inr hstay

/-- Every call that evicts nothing keeps `Paged`. -/
theorem Paged.step {s : Screen} (hb : InBounds s) (h : Paged s) {op : Op}
    (hev : evicts s op = false) : Paged (s.step op) := by
  cases op with
  | putChar ch =>
    obtain ⟨hset, hblank⟩ := settled_putChar hb h ch (not_evicts hb hev)
    exact hset.paged hblank
  | delChar =>
    obtain ⟨hset, hblank⟩ := settled_delChar hb h
    exact hset.paged hblank
  | setFontColor color => exact ⟨h.blank, h.shows⟩
  | clearScreen =>
    obtain ⟨hset, hblank⟩ := settled_clearScreen s
    exact hset.paged hblank
  | scrollPageUp => exact h.showLine _
  | scrollPageDown => exact h.showLine _

/-- A call of a tracked run keeps `Paged`, until one evicts history. -/
theorem paged_trackStep {p : Screen × Bool} (hb : InBounds p.1) (h : p.2 = false → Paged p.1) {op : Op}
    (hev : (trackStep p op).2 = false) : Paged (trackStep p op).1 := by
  simp only [trackStep] at hev ⊢
  split at hev
  · rename_i hclear
    subst hclear
    exact (settled_clearScreen p.1).1.paged (settled_clearScreen p.1).2
  · rw [Bool.or_eq_false_iff] at hev
    exact (h hev.1).step hb hev.2

/-- The two calls that write settle the page. -/
theorem Paged.settled_step {s : Screen} (hb : InBounds s) (h : Paged s) {op : Op}
    (hev : evicts s op = false) (hop : op.isWrite = true) : Settled (s.step op) := by
  cases op with
  | putChar ch =>
    exact (settled_putChar hb h ch (not_evicts hb hev)).1
  | delChar => exact (settled_delChar hb h).1
  | _ => exact nomatch hop

/-- Two settled screens with the same log show the same page. -/
theorem Settled.dispChar_eq {s t : Screen} (hs : Settled s) (ht : Settled t) (h : SameLog s t)
    {r c : Int} (hr : 0 ≤ r) (hr' : r < 25) (hc : 0 ≤ c) (hc' : c < 80) :
    s.dispChar r c = t.dispChar r c := by
  have hnonneg : 0 ≤ s.home := by simp only [home]; omega
  rw [hs.shows r c hr hr' hc hc', ht.shows r c hr hr' hc hc', ← h.home_eq]
  exact h.backup _ (by omega)

/-! ## The two runs -/

/-- The tracked screen of the full run against the screen of the run without paging. -/
structure Alike (p : Screen × Bool) (t : Screen) : Prop where
  sameLog : SameLog p.1 t
  inBounds : InBounds p.1
  inBounds' : InBounds t
  paged : p.2 = false → Paged p.1
  paged' : p.2 = false → Paged t

theorem evicts_congr {s t : Screen} (h : SameLog s t) (op : Op) : evicts s op = evicts t op := by
  cases op with
  | putChar ch => simp only [evicts, h.globRow, h.column]
  | _ => rfl

/-- A call that both runs make keeps them alike. -/
theorem Alike.step {p : Screen × Bool} {t : Screen} (h : Alike p t) {op : Op}
    (hop : op.isPaging = false) : Alike (trackStep p op) (t.step op) where
  sameLog := h.sameLog.step h.inBounds hop
  inBounds := step_inBounds h.inBounds op
  inBounds' := step_inBounds h.inBounds' op
  paged htrack := paged_trackStep h.inBounds h.paged htrack
  paged' htrack := by
    have hflag : (trackStep (t, p.2) op).2 = (trackStep p op).2 := by
      simp only [trackStep, evicts_congr h.sameLog op]
    exact paged_trackStep (p := (t, p.2)) h.inBounds' h.paged' (hflag.trans htrack)

/-- A paging call of the full run keeps them alike. -/
theorem Alike.step_paging {p : Screen × Bool} {t : Screen} (h : Alike p t) {op : Op}
    (hop : op.isPaging = true) : Alike (trackStep p op) t := by
  have hev : evicts p.1 op = false := by cases op <;> first | rfl | simp [Op.isPaging] at hop
  have hclear : op ≠ .clearScreen := by rintro rfl; simp [Op.isPaging] at hop
  have hflag : (trackStep p op).2 = p.2 := by simp [trackStep, hclear, hev]
  exact
    { sameLog := h.sameLog.step_paging hop
      inBounds := step_inBounds h.inBounds op
      inBounds' := h.inBounds'
      paged := fun htrack => (h.paged (hflag ▸ htrack)).step h.inBounds hev
      paged' := fun htrack => h.paged' (hflag ▸ htrack) }

theorem alike_clearScreen (s : Screen) : Alike (s.clearScreen, false) s.clearScreen where
  sameLog := SameLog.refl _
  inBounds := clearScreen_inBounds s
  inBounds' := clearScreen_inBounds s
  paged _ := (settled_clearScreen s).1.paged (settled_clearScreen s).2
  paged' _ := (settled_clearScreen s).1.paged (settled_clearScreen s).2

/-- Deleting the paging calls of a run keeps the two runs alike. -/
theorem alike_run (s : Screen) (ops : List Op) :
    Alike (run trackStep (s.clearScreen, false) ops)
      (run step s.clearScreen (ops.filter (!·.isPaging))) := by
  refine run_filter Alike (!·.isPaging) ?_ ?_ (alike_clearScreen s) ops
  · intro p t op hkeep h
    exact h.step (by simpa using hkeep)
  · intro p t op hdrop h
    exact h.step_paging (by simpa using hdrop)

/-- Deleting the paging calls of a run changes neither the cursor nor the log.
    If the run ends with a call that writes, and no history was evicted since the
    last `clearScreen`, it does not change the characters on the display either. -/
theorem paging_transparent (s₀ : Screen) (ops : List Op) :
    let s := run step s₀.clearScreen ops
    let t := run step s₀.clearScreen (ops.filter (!·.isPaging))
    (s.column = t.column ∧ s.dispRow = t.dispRow ∧ s.globRow = t.globRow ∧
      ∀ i, 0 ≤ i → i < 28000 → s.vidmem (BACKUP_ADDRESS + i) = t.vidmem (BACKUP_ADDRESS + i)) ∧
    ((∃ op, ops.getLast? = some op ∧ op.isWrite = true) →
      evictedSinceClear s₀.clearScreen ops = false →
      ∀ r c, 0 ≤ r → r < 25 → 0 ≤ c → c < 80 → s.dispChar r c = t.dispChar r c) := by
  have hrun := alike_run s₀ ops
  rw [← trackStep_run_fst (s₀.clearScreen, false) ops]
  refine ⟨⟨hrun.sameLog.column, hrun.sameLog.dispRow, hrun.sameLog.globRow,
    fun i hi _ => hrun.sameLog.backup _ (by omega)⟩, ?_⟩
  intro h hev r c hr hr' hc hc'
  obtain ⟨op, hlast, hop⟩ := h
  obtain ⟨ops', rfl⟩ := List.getLast?_eq_some_iff.mp hlast
  -- the last call writes, so both runs make it, from states that are alike
  have hpaging : op.isPaging = false := by cases op <;> first | rfl | exact nomatch hop
  have hbefore := alike_run s₀ ops'
  rw [List.filter_append, List.filter_cons_of_pos (by simp [hpaging]), List.filter_nil] at hrun ⊢
  rw [evictedSinceClear, run_append] at hev
  rw [run_append, run_append] at hrun ⊢
  have hne : op ≠ .clearScreen := by rintro rfl; exact nomatch hop
  simp only [run_cons, run_nil, trackStep, if_neg hne, Bool.or_eq_false_iff] at hev
  have hev' := (evicts_congr hbefore.sameLog op) ▸ hev.2
  exact ((hbefore.paged hev.1).settled_step hbefore.inBounds hev.2 hop).dispChar_eq
    ((hbefore.paged' hev.1).settled_step hbefore.inBounds' hev' hop) hrun.sameLog hr hr' hc hc'

/-- A page-up between two characters does not show: the second one restores the page. -/
theorem paging_transparent_two_chars :
    let s := run step ({ vidmem := fun _ => 0 } : Screen).clearScreen
      [.putChar 65, .scrollPageUp, .putChar 66]
    let t := run step ({ vidmem := fun _ => 0 } : Screen).clearScreen [.putChar 65, .putChar 66]
    s.column = t.column ∧ s.dispChar 0 0 = t.dispChar 0 0 := by
  have h := paging_transparent { vidmem := fun _ => 0 } [.putChar 65, .scrollPageUp, .putChar 66]
  exact ⟨h.1.1, h.2 ⟨.putChar 66, rfl, rfl⟩ rfl 0 0 (by decide) (by decide) (by decide) (by decide)⟩

end SoreOS.Screen
