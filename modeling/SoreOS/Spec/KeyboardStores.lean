import SoreOS.Native.Kernel
import SoreOS.Spec.LineEditor

/-!
# Stores of the keyboard driver

Whether the keyboard driver stays inside its two buffers and its character tables, in
any run of keyboard interrupts between the calls by which the shell reads its input.
The driver looks at neither: a scan code may lie behind the tables, and the two
indices count as far as keys are pressed and lines are typed. The calls have a fault of
their own: `trimInput` may read past the end of `inputBuffer`. The run goes on behind it.

## Key results

- `keyboardHandler_iff`: when an interrupt accesses its arrays inside their bounds
- `call_error`: a call faults only where `trimInput` finds white space to the end of the buffer
- `stepPast_bounded`, `stepPast_call`: no call and no key takes the pending line or the queue out
  of its buffer, and no call ends the run
- `keyboardStores_iff`: when the interrupts of a whole run access their arrays inside their bounds
- `interrupts_ok_iff`: between two calls, exactly as long as the line editor's text fits
- `not_keyboardStores`: the prefix of an extended scan code
-/

namespace SoreOS

open ForStd Keyboard IoBuffers

/-! ## Behind a call that faults -/

/-- The call that the main loop makes after this one, by what was read. -/
def InputCall.after (buffer : List UInt8) : InputCall → InputCall
  | .clearInputBuffer => .getStr
  | .getStr =>
    if strcmp buffer (str ['c', 'd']) = 0 ∨ strcmp buffer (str ['c', 'a', 't']) = 0 then .getLine
    else .clearInputBuffer
  | .getLine => .clearInputBuffer

/-- The bytes at which a call stops copying. -/
def InputCall.stop (c : InputCall) : UInt8 → Bool := if c = .getLine then (· = NEWLINE) else isWhite

/-- A call whose trimming leaves `inputBuffer` over `behind` spaces and newlines that follow it.
    No queued byte lies there, so none is moved. -/
def InputState.overrun (s : InputState) (behind : Nat) : Except Fault InputState := do
  let buffer ← copyToken s.next.stop 256 s.keyboard.io.inputBuffer 2049 0
  let io := { s.keyboard.io with inputIndex := s.keyboard.io.inputIndex - (2048 + behind) }
  return ⟨{ s.keyboard with io := io }, s.next.after buffer⟩

/-- A step of a run that goes on behind such a call. How many of them follow may depend on the state. -/
def InputState.stepPast (behind : InputState → Nat) (s : InputState) : InputStep → Except Fault InputState
  | .interrupt status keyCode => s.step (.interrupt status keyCode)
  | .call =>
    match s.call with
    | .ok t => .ok t
    | .error _ => s.overrun (behind s)

/-! ## Conditions -/

/-- The interrupt accesses its arrays inside their bounds. -/
def StoresInBounds (s : InputState) : InputStep → Prop
  | .interrupt status keyCode => ∃ k, keyboardHandler s.keyboard status keyCode = .ok k
  | .call => True

/-- There is room for what a key stores: a character in `tempBuffer`, or the pending line and a
    newline in `inputBuffer`. -/
def KeyFits (io : IoBuffers) : Key → Bool → Prop
  | .char _ _, true => io.tempIndex < 2048
  | .enter, true => 0 ≤ io.inputIndex ∧ io.inputIndex + io.tempIndex < 2048
  | _, _ => True

/-- The interrupt brings no scan code, or one inside the tables that there is room for. -/
def InterruptFits (s : InputState) : InputStep → Prop
  | .interrupt status keyCode => status &&& 0x01 ≠ 0 →
      KnownCode keyCode ∧ KeyFits s.keyboard.io (keyOf (keyCode &&& 0x7F)) (keyCode &&& 0x80 = KEY_DOWN)
  | .call => True

/-- The pending line and the queue lie in their buffers. The index of the queue may be negative
    (`trimInput_overrun`). -/
structure IoBuffers.Bounded (io : IoBuffers) : Prop where
  tempIndex_nonneg : 0 ≤ io.tempIndex
  tempIndex_le : io.tempIndex ≤ 2048
  inputIndex_le : io.inputIndex ≤ 2048

/-! ## Interrupts -/

section Keys

variable {k : Keyboard} (h : k.io.Bounded)
include h

theorem typeChar_iff (c : UInt8) : (∃ k', typeChar k c = .ok k') ↔ k.io.tempIndex < 2048 := by
  constructor
  · intro hgiven
    obtain ⟨k', hrun⟩ := hgiven
    obtain ⟨m, hstore, -⟩ := bind_eq_ok.mp hrun
    exact (store_eq_ok hstore).2.1
  · intro hlt
    exact ⟨_, bind_of_ok (store_ok (o := .tempBuffer) _ c h.tempIndex_nonneg hlt) rfl⟩

theorem commitLine_iff :
    (∃ k', commitLine k = .ok k') ↔ 0 ≤ k.io.inputIndex ∧ k.io.inputIndex + k.io.tempIndex < 2048 := by
  obtain ⟨n, hn⟩ := Int.eq_ofNat_of_zero_le h.tempIndex_nonneg
  have hle := h.tempIndex_le
  unfold commitLine
  rw [hn, Int.toNat_natCast]
  constructor
  · intro hgiven
    obtain ⟨k', hrun⟩ := hgiven
    obtain ⟨m, hcopy, hrun⟩ := bind_eq_ok.mp hrun
    obtain ⟨m', hstore, -⟩ := bind_eq_ok.mp hrun
    obtain ⟨hge, hlt, -⟩ := store_eq_ok hstore
    -- the copy of a line that is not empty begins at `inputIndex`
    obtain rfl | hpos := Nat.eq_zero_or_pos n
    · rw [Int.natCast_zero, Int.add_zero] at hge
      exact ⟨hge, hlt⟩
    · exact ⟨(copyArray_bounds hcopy hpos).1, hlt⟩
  · intro hgiven
    obtain ⟨hge, hlt⟩ := hgiven
    have hcopy := copyArray_ok .inputBuffer k.io.inputBuffer k.io.inputIndex .tempBuffer k.io.tempBuffer 0 (n := n) hge
      (by simp only [Obj.size]; omega) (Int.le_refl 0) (by simp only [Obj.size]; omega)
    rw [hcopy, ok_bind]
    exact ⟨_, bind_of_ok (store_ok (o := .inputBuffer) _ NEWLINE (by omega) hlt) rfl⟩

theorem deletePending_ok : ∃ k', deletePending k = .ok k' := by
  have hle := h.tempIndex_le
  unfold deletePending
  split
  · exact ⟨_, bind_of_ok (store_ok (o := .tempBuffer) _ 0 (by omega) (by simp only [Obj.size]; omega)) rfl⟩
  · exact ⟨k, rfl⟩

/-- A key stores inside the buffers exactly if there is room. -/
theorem pressKey_iff (key : Key) (down : Bool) : (∃ k', pressKey k key down = .ok k') ↔ KeyFits k.io key down := by
  cases down with
  | true =>
    cases key with
    | char plain shifted => exact typeChar_iff h _
    | enter => exact commitLine_iff h
    | backspace => exact iff_of_true (deletePending_ok h) trivial
    | lshift => exact iff_of_true ⟨_, rfl⟩ trivial
    | rshift => exact iff_of_true ⟨_, rfl⟩ trivial
    | capsLock => exact iff_of_true ⟨_, rfl⟩ trivial
    | pageUp => exact iff_of_true ⟨_, rfl⟩ trivial
    | pageDown => exact iff_of_true ⟨_, rfl⟩ trivial
    | other => exact iff_of_true ⟨_, rfl⟩ trivial
  | false => cases key <;> exact iff_of_true ⟨_, rfl⟩ trivial

/-- The line and the queue stay in their buffers. -/
theorem pressKey_bounded {k' : Keyboard} {key : Key} {down : Bool} (hrun : pressKey k key down = .ok k') :
    k'.io.Bounded := by
  have hge := h.tempIndex_nonneg
  have hle := h.tempIndex_le
  cases down with
  | false => cases key <;> (cases hrun; exact h)
  | true =>
    cases key with
    | char plain shifted =>
      -- the store returned, so the line was not full
      have hlt := (typeChar_iff h _).mp ⟨k', hrun⟩
      obtain ⟨m, -, hrun⟩ := bind_eq_ok.mp hrun
      cases hrun
      exact ⟨by dsimp only; omega, by dsimp only; omega, h.inputIndex_le⟩
    | enter =>
      -- and here the queue had room for the line and its newline
      obtain ⟨-, hlt⟩ := (commitLine_iff h).mp ⟨k', hrun⟩
      obtain ⟨m, -, hrun⟩ := bind_eq_ok.mp hrun
      obtain ⟨m', -, hrun⟩ := bind_eq_ok.mp hrun
      cases hrun
      exact ⟨Int.le_refl 0, Int.ofNat_le.mpr (Nat.zero_le 2048), hlt⟩
    | backspace =>
      have hrun : deletePending k = .ok k' := hrun
      unfold deletePending at hrun
      split at hrun
      · obtain ⟨m, -, hrun⟩ := bind_eq_ok.mp hrun
        cases hrun
        exact ⟨by dsimp only; omega, by dsimp only; omega, h.inputIndex_le⟩
      · cases hrun
        exact h
    | lshift => cases hrun; exact h
    | rshift => cases hrun; exact h
    | capsLock => cases hrun; exact h
    | pageUp => cases hrun; exact h
    | pageDown => cases hrun; exact h
    | other => cases hrun; exact h

end Keys

/-- A scan code behind the tables is looked up all the same. -/
theorem keyboardHandler_unknown (k : Keyboard) {status keyCode : UInt8} (hstatus : status &&& 0x01 ≠ 0)
    (hcode : ¬ KnownCode keyCode) : ∃ f, keyboardHandler k status keyCode = .error f := by
  have hout : ∀ o : Obj, o.size = 90 → ∀ m : Bytes,
      load o m (keyCode &&& 0x7F).toNat = .error ⟨o, (keyCode &&& 0x7F).toNat⟩ := by
    intro o ho m
    refine if_neg fun hin => hcode ?_
    rw [ho] at hin
    exact Int.ofNat_lt.mp hin.2
  -- shifted or not, the table ends in front of the code
  rw [keyboardHandler, if_pos hstatus, keyChar]
  split
  · rw [hout .shiftCharset rfl]
    exact ⟨_, rfl⟩
  · rw [hout .normCharset rfl]
    exact ⟨_, rfl⟩

section Interrupt

variable {k : Keyboard} (h : k.io.Bounded)
include h

/-- An interrupt accesses its arrays inside their bounds exactly if there is room. -/
theorem keyboardHandler_iff (status keyCode : UInt8) : (∃ k', keyboardHandler k status keyCode = .ok k') ↔
    (status &&& 0x01 ≠ 0 →
      KnownCode keyCode ∧ KeyFits k.io (keyOf (keyCode &&& 0x7F)) (keyCode &&& 0x80 = KEY_DOWN)) := by
  by_cases hstatus : status &&& 0x01 ≠ 0
  · rw [forall_prop_of_true hstatus]
    by_cases hcode : KnownCode keyCode
    · rw [keyboardHandler_key k hstatus hcode, and_iff_right hcode]
      exact pressKey_iff h _ _
    · obtain ⟨f, hfault⟩ := keyboardHandler_unknown k hstatus hcode
      rw [hfault]
      exact iff_of_false (fun hok => by cases hok.choose_spec) fun hfits => hcode hfits.1
  · rw [keyboardHandler, if_neg hstatus]
    exact iff_of_true ⟨k, rfl⟩ fun hno => absurd hno hstatus

theorem keyboardHandler_bounded {k' : Keyboard} {status keyCode : UInt8}
    (hrun : keyboardHandler k status keyCode = .ok k') : k'.io.Bounded := by
  by_cases hstatus : status &&& 0x01 ≠ 0
  · obtain ⟨hcode, -⟩ := (keyboardHandler_iff h status keyCode).mp ⟨k', hrun⟩ hstatus
    rw [keyboardHandler_key k hstatus hcode] at hrun
    exact pressKey_bounded h hrun
  · rw [keyboardHandler, if_neg hstatus] at hrun
    cases hrun
    exact h

end Interrupt

/-! ## Calls -/

/-- Copying stops inside the buffer, which is longer than a command. -/
theorem copyToken_command (stop : UInt8 → Bool) (m : Bytes) (rounds : Nat) {idx : Int} (hge : 0 ≤ idx)
    (hle : idx ≤ 255) (hrounds : 255 < idx + rounds) : ∃ buffer, copyToken stop 256 m rounds idx = .ok buffer := by
  induction rounds generalizing idx with
  | zero => omega
  | succ rounds ih =>
    rw [copyToken, load_ok (o := .inputBuffer) m hge (by simp only [Obj.size]; omega), ok_bind]
    split
    · rename_i hgo
      have hlt : idx < 255 := of_decide_eq_true (Bool.and_eq_true_iff.mp hgo).2
      obtain ⟨rest, hrest⟩ := ih (show 0 ≤ idx + 1 by omega) (by omega) (by omega)
      exact ⟨m idx :: rest, by rw [hrest]; rfl⟩
    · exact ⟨[], rfl⟩

/-- The white-space scan faults only where all is white to the end of the array. -/
theorem skipWhite_error {m : Bytes} {rounds : Nat} {count : Int} {f : Fault} (hge : 0 ≤ count)
    (hrounds : 2048 ≤ count + rounds) (h : skipWhite m rounds count = .error f) (i : Int) (hi : count ≤ i)
    (hi' : i < 2048) : isWhite (m i) = true := by
  induction rounds generalizing count with
  | zero => omega
  | succ rounds ih =>
    rw [skipWhite, load_ok (o := .inputBuffer) m hge (by simp only [Obj.size]; omega), ok_bind] at h
    split at h
    · rename_i hwhite
      obtain rfl | hne := eq_or_ne i count
      · exact hwhite
      · exact ih (by omega) (by omega) h (by omega)
    · cases h

/-- Trimming a queue that lies in its buffer faults only there, too: what it moves is inside. -/
theorem trimInput_error {io : IoBuffers} (h : io.Bounded) {n : Nat} {f : Fault} (hrun : trimInput io n = .error f)
    (i : Int) (hi : n ≤ i) (hi' : i < 2048) : isWhite (io.inputBuffer i) = true := by
  have hle := h.inputIndex_le
  unfold trimInput at hrun
  cases hskip : skipWhite io.inputBuffer 2049 n with
  | error f' => exact skipWhite_error (by omega) (by omega) hskip i hi hi'
  | ok c =>
    obtain ⟨hc, hc', -, -⟩ := skipWhite_spec hskip
    have hmove := moveArray_ok .inputBuffer io.inputBuffer 0 c (n := (io.inputIndex - c).toNat) (Int.le_refl 0)
      (by simp only [Obj.size]; omega) (by omega) (by simp only [Obj.size]; omega)
    rw [hskip, ok_bind, hmove] at hrun
    cases hrun

/-- Trimming takes from the queue and does not look at the pending line. -/
theorem trimInput_bounded {io io' : IoBuffers} (h : io.Bounded) {n : Nat} (hrun : trimInput io n = .ok io') :
    io'.Bounded := by
  have hle := h.inputIndex_le
  obtain ⟨c, hskip, hrun⟩ := bind_eq_ok.mp hrun
  obtain ⟨m, -, hrun⟩ := bind_eq_ok.mp hrun
  obtain ⟨hc, -, -, -⟩ := skipWhite_spec hskip
  cases hrun
  exact ⟨h.tempIndex_nonneg, h.tempIndex_le, by dsimp only; omega⟩

theorem readToken_bounded {io io' : IoBuffers} (h : io.Bounded) {stop : UInt8 → Bool} {size : Int}
    {buffer : List UInt8} (hrun : readToken io stop size = .ok (buffer, io')) : io'.Bounded := by
  obtain ⟨token, -, hrun⟩ := bind_eq_ok.mp hrun
  obtain ⟨io'', htrim, hrun⟩ := bind_eq_ok.mp hrun
  cases hrun
  exact trimInput_bounded h htrim

theorem readToken_error {io : IoBuffers} (h : io.Bounded) {stop : UInt8 → Bool} {f : Fault}
    (hrun : readToken io stop 256 = .error f) : ∃ buffer, copyToken stop 256 io.inputBuffer 2049 0 = .ok buffer ∧
      ∀ i : Int, buffer.length ≤ i → i < 2048 → isWhite (io.inputBuffer i) = true := by
  obtain ⟨buffer, hcopy⟩ := copyToken_command stop io.inputBuffer 2049 (Int.le_refl 0) (by omega) (by omega)
  refine ⟨buffer, hcopy, ?_⟩
  unfold readToken at hrun
  rw [hcopy, ok_bind] at hrun
  cases htrim : trimInput io buffer.length with
  | error f' => exact trimInput_error h htrim
  | ok io' =>
    rw [htrim] at hrun
    cases hrun

section Call

variable {s : InputState} (h : s.keyboard.io.Bounded)
include h

theorem call_bounded {t : InputState} (hrun : s.call = .ok t) : t.keyboard.io.Bounded := by
  unfold InputState.call at hrun
  split at hrun
  · cases hrun
    exact ⟨h.tempIndex_nonneg, h.tempIndex_le, Int.ofNat_le.mpr (Nat.zero_le 2048)⟩
  · split at hrun
    · cases hrun
      exact h
    · obtain ⟨⟨buffer, io⟩, hread, hrun⟩ := bind_eq_ok.mp hrun
      cases hrun
      exact readToken_bounded h hread
  · split at hrun
    · cases hrun
      exact h
    · obtain ⟨⟨buffer, io⟩, hread, hrun⟩ := bind_eq_ok.mp hrun
      cases hrun
      exact readToken_bounded h hread

/-- A call faults only where everything behind what it copies is white to the end of the buffer. -/
theorem call_error {f : Fault} (hrun : s.call = .error f) :
    ∃ buffer, copyToken s.next.stop 256 s.keyboard.io.inputBuffer 2049 0 = .ok buffer ∧
      ∀ i : Int, buffer.length ≤ i → i < 2048 → isWhite (s.keyboard.io.inputBuffer i) = true := by
  unfold InputState.call at hrun
  split at hrun
  · cases hrun
  · rename_i hnext
    rw [hnext]
    split at hrun
    · cases hrun
    · cases hread : s.keyboard.io.getStr 256 with
      | error f' => exact readToken_error h hread
      | ok p =>
        rw [hread] at hrun
        cases hrun
  · rename_i hnext
    rw [hnext]
    split at hrun
    · cases hrun
    · cases hread : s.keyboard.io.getLine 256 NEWLINE with
      | error f' => exact readToken_error h hread
      | ok p =>
        rw [hread] at hrun
        cases hrun

/-- A call that leaves the buffer returns, with what it has counted taken from `inputIndex`. -/
theorem overrun_ok (behind : Nat) {f : Fault} (hrun : s.call = .error f) :
    ∃ t, s.overrun behind = .ok t ∧ t.keyboard.io.Bounded := by
  have hle := h.inputIndex_le
  obtain ⟨buffer, hcopy, -⟩ := call_error h hrun
  exact ⟨_, bind_of_ok hcopy rfl, h.tempIndex_nonneg, h.tempIndex_le, by dsimp only; omega⟩

end Call

/-! ## Runs -/

variable (behind : InputState → Nat)

/-- Every step keeps the pending line and the queue in their buffers. -/
theorem stepPast_bounded {s t : InputState} {e : InputStep} (h : s.keyboard.io.Bounded)
    (hrun : s.stepPast behind e = .ok t) : t.keyboard.io.Bounded := by
  cases e with
  | interrupt status keyCode =>
    obtain ⟨k, hkey, hrun⟩ := bind_eq_ok.mp hrun
    cases hrun
    exact keyboardHandler_bounded h hkey
  | call =>
    unfold InputState.stepPast at hrun
    dsimp only at hrun
    split at hrun
    · rename_i t' hcall
      cases hrun
      exact call_bounded h hcall
    · rename_i f hcall
      obtain ⟨t', hover, hbounded⟩ := overrun_ok h (behind s) hcall
      rw [hover] at hrun
      cases hrun
      exact hbounded

/-- No call ends the run. -/
theorem stepPast_call {s : InputState} (h : s.keyboard.io.Bounded) : ∃ t, s.stepPast behind .call = .ok t := by
  unfold InputState.stepPast
  dsimp only
  split
  · exact ⟨_, rfl⟩
  · rename_i f hcall
    obtain ⟨t, hover, -⟩ := overrun_ok h (behind s) hcall
    exact ⟨t, hover⟩

theorem storesInBounds_iff {s : InputState} (h : s.keyboard.io.Bounded) (e : InputStep) :
    StoresInBounds s e ↔ InterruptFits s e := by
  cases e with
  | interrupt status keyCode => exact keyboardHandler_iff h status keyCode
  | call => exact Iff.rfl

theorem boot_bounded (screen : Screen) : (InputState.boot screen).keyboard.io.Bounded :=
  ⟨Int.le_refl 0, Int.ofNat_le.mpr (Nat.zero_le 2048), Int.ofNat_le.mpr (Nat.zero_le 2048)⟩

/-- In a run of interrupts and calls the keyboard driver accesses its arrays inside their bounds
    exactly if every interrupt brings a scan code inside the tables and finds room. -/
theorem keyboardStores_iff (screen : Screen) (es : List InputStep) :
    StepsOk (InputState.stepPast behind) StoresInBounds (.boot screen) es ↔
      StepsOk (InputState.stepPast behind) InterruptFits (.boot screen) es :=
  StepsOk.congr (I := fun s => s.keyboard.io.Bounded) (fun _ _ _ h hrun => stepPast_bounded behind h hrun)
    (fun _ e h => storesInBounds_iff h e) (boot_bounded screen)

/-- The first byte of an extended scan code is looked up at index 96 of 90. -/
theorem not_keyboardStores :
    ¬ StepsOk (InputState.stepPast fun _ => 0) StoresInBounds (.boot { vidmem := fun _ => 0 })
      [.interrupt 0x01 0xE0] := by
  intro h
  obtain ⟨⟨k, hk⟩, -⟩ := h
  cases hk

/-! ## Between two calls

What is typed while a command runs: the room is then that of the line editor. -/

/-- There is room for a key exactly if the line editor's text fits after it. -/
theorem Keyboard.Tracks.keyFits_iff {k : Keyboard} {e : Editor} (h : Tracks k e) (hfits : e.Fits) (key : Key)
    (down : Bool) : KeyFits k.io key down ↔ (e.step key down).Fits := by
  obtain ⟨hpending, hcommitted⟩ := hfits
  have htemp := h.tempIndex
  have hinput := h.inputIndex
  cases down with
  | false => cases key <;> exact iff_of_true trivial ⟨hpending, hcommitted⟩
  | true =>
    cases key with
    | char plain shifted =>
      show k.io.tempIndex < 2048 ↔ (e.pending ++ [_]).length ≤ 2048 ∧ e.committed.length ≤ 2048
      rw [List.length_append, List.length_singleton]
      omega
    | enter =>
      show 0 ≤ k.io.inputIndex ∧ k.io.inputIndex + k.io.tempIndex < 2048 ↔
        0 ≤ 2048 ∧ (e.committed ++ e.pending ++ [NEWLINE]).length ≤ 2048
      rw [List.length_append, List.length_append, List.length_singleton]
      omega
    | backspace =>
      refine iff_of_true trivial ⟨?_, hcommitted⟩
      show e.pending.dropLast.length ≤ 2048
      rw [List.length_dropLast]
      omega
    | lshift => exact iff_of_true trivial ⟨hpending, hcommitted⟩
    | rshift => exact iff_of_true trivial ⟨hpending, hcommitted⟩
    | capsLock => exact iff_of_true trivial ⟨hpending, hcommitted⟩
    | pageUp => exact iff_of_true trivial ⟨hpending, hcommitted⟩
    | pageDown => exact iff_of_true trivial ⟨hpending, hcommitted⟩
    | other => exact iff_of_true trivial ⟨hpending, hcommitted⟩

theorem Keyboard.Tracks.bounded {k : Keyboard} {e : Editor} (h : Tracks k e) (hfits : e.Fits) : k.io.Bounded where
  tempIndex_nonneg := by rw [h.tempIndex]; exact Int.natCast_nonneg _
  tempIndex_le := by rw [h.tempIndex]; exact Int.ofNat_le.mpr hfits.1
  inputIndex_le := by rw [h.inputIndex]; exact Int.ofNat_le.mpr hfits.2

/-- An interrupt accesses its arrays inside their bounds exactly if the text fits after it. -/
theorem Keyboard.Tracks.interrupt_iff {k : Keyboard} {e : Editor} (h : Tracks k e) (hfits : e.Fits)
    (p : UInt8 × UInt8) : (∃ k', k.interrupt p = .ok k') ↔
      (p.1 &&& 0x01 ≠ 0 → KnownCode p.2) ∧ (e.interrupt p).Fits := by
  refine (keyboardHandler_iff (h.bounded hfits) p.1 p.2).trans ?_
  unfold Editor.interrupt
  by_cases hstatus : p.1 &&& 0x01 ≠ 0
  · rw [if_pos hstatus, forall_prop_of_true hstatus, forall_prop_of_true hstatus, h.keyFits_iff hfits]
  · rw [if_neg hstatus]
    exact iff_of_true (fun hno => absurd hno hstatus) ⟨fun hno => absurd hno hstatus, hfits⟩

/-- Between two calls the driver stays inside its arrays exactly if all scan codes lie in the tables
    and the text of the line editor fits after every key. -/
theorem interrupts_ok_iff {k : Keyboard} {e : Editor} (h : Tracks k e) (hfits : e.Fits) (ps : List (UInt8 × UInt8)) :
    (∃ k', ps.foldlM interrupt k = .ok k') ↔
      (∀ p ∈ ps, p.1 &&& 0x01 ≠ 0 → KnownCode p.2) ∧ ∀ n, (run Editor.interrupt e (ps.take n)).Fits := by
  induction ps generalizing k e with
  | nil => exact iff_of_true ⟨k, rfl⟩ ⟨fun p hp => absurd hp List.not_mem_nil, fun n => by rw [List.take_nil]; exact hfits⟩
  | cons p ps ih =>
    rw [List.foldlM_cons]
    constructor
    · intro hgiven
      obtain ⟨k', hrun⟩ := hgiven
      obtain ⟨k₁, hfirst, hrest⟩ := bind_eq_ok.mp hrun
      obtain ⟨hcode, hfits₁⟩ := (h.interrupt_iff hfits p).mp ⟨k₁, hfirst⟩
      obtain ⟨k₂, hsame, htracks⟩ := h.interrupt hcode hfits hfits₁
      rw [hfirst] at hsame
      cases hsame
      obtain ⟨hcodes, hall⟩ := (ih htracks hfits₁).mp ⟨k', hrest⟩
      refine ⟨List.forall_mem_cons.mpr ⟨hcode, hcodes⟩, fun n => ?_⟩
      cases n with
      | zero => exact hfits
      | succ n => exact hall n
    · intro hgiven
      obtain ⟨hcodes, hall⟩ := hgiven
      obtain ⟨hcode, hcodes⟩ := List.forall_mem_cons.mp hcodes
      obtain ⟨k₁, hfirst, htracks⟩ := h.interrupt hcode hfits (hall 1)
      obtain ⟨k', hrest⟩ := (ih htracks (hall 1)).mpr ⟨hcodes, fun n => hall (n + 1)⟩
      exact ⟨k', bind_of_ok hfirst hrest⟩

end SoreOS
