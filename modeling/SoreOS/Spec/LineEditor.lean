import SoreOS.Spec.InputQueue
import SoreOS.ForStd.Run

/-!
# The keyboard as a line editor

The interrupt handler against a line editor that knows keys instead of scan codes:
a key has a plain and a shifted character, or one of seven functions. The handler
finds out which by looking the scan code up in one of two tables.

## Key results

- `keyboardHandler_key`: what the handler does with each key
- `Tracks`: the two buffers hold what the line editor does
- `keyboard_tracks`: so it is after every sequence of interrupts
-/

namespace SoreOS.Keyboard

open ForStd

/-! ## Keys -/

/-- A key, with its two characters or its function. -/
inductive Key where
  | char (plain shifted : UInt8)
  | lshift
  | rshift
  | capsLock
  | pageUp
  | pageDown
  | backspace
  | enter
  | other
  deriving DecidableEq, Repr

/-- The key of a scan code without its release bit. -/
def keyOf (code : UInt8) : Key :=
  if code = KEY_LSHIFT then .lshift
  else if code = KEY_RSHIFT then .rshift
  else if code = KEY_CAPSLOCK then .capsLock
  else if code = KEY_PAGEUP then .pageUp
  else if code = KEY_PAGEDOWN then .pageDown
  else if code = KEY_BACKSPACE then .backspace
  else if code = KEY_ENTER then .enter
  else if table normCharset code.toNat = 0 then .other
  else .char (table normCharset code.toNat) (table shiftCharset code.toNat)

/-- A scan code inside the two tables. -/
def KnownCode (keyCode : UInt8) : Prop := (keyCode &&& 0x7F).toNat < 0x5A

instance (keyCode : UInt8) : Decidable (KnownCode keyCode) := Nat.decLt ..

/-- The two tables have characters for the same keys. -/
theorem table_eq_zero_iff : ∀ n < 90,
    (table normCharset (n : Nat) = 0 ↔ table shiftCharset (n : Nat) = 0) := by decide

/-- The keys with a function have no characters. -/
theorem table_function (code : UInt8)
    (h : code ∈ [KEY_LSHIFT, KEY_RSHIFT, KEY_CAPSLOCK, KEY_PAGEUP, KEY_PAGEDOWN, KEY_BACKSPACE, KEY_ENTER]) :
    table normCharset code.toNat = 0 ∧ table shiftCharset code.toNat = 0 := by
  simp only [List.mem_cons, List.not_mem_nil, or_false] at h
  obtain rfl | rfl | rfl | rfl | rfl | rfl | rfl := h <;> decide

/-- No key types a newline. -/
theorem table_ne_newline : ∀ n < 90,
    table normCharset (n : Nat) ≠ NEWLINE ∧ table shiftCharset (n : Nat) ≠ NEWLINE := by decide

/-- The modifiers select the second table. -/
def shifting (k : Keyboard) : Bool := k.lshift || k.rshift || k.capsLock

/-- The handler's reaction to a key. -/
def pressKey (k : Keyboard) : Key → Bool → Except Fault Keyboard
  | .char plain shifted, true => typeChar k (if k.shifting then shifted else plain)
  | .lshift, down => .ok { k with lshift := down }
  | .rshift, down => .ok { k with rshift := down }
  | .capsLock, true => .ok { k with capsLock := !k.capsLock }
  | .pageUp, true => .ok { k with screen := k.screen.scrollPageUp }
  | .pageDown, true => .ok { k with screen := k.screen.scrollPageDown }
  | .backspace, true => deletePending k
  | .enter, true => commitLine k
  | _, _ => .ok k

theorem keyChar_known (k : Keyboard) {code : UInt8} (h : code.toNat < 90) :
    keyChar k code = .ok (if k.shifting then table shiftCharset code.toNat else table normCharset code.toNat) := by
  unfold keyChar shifting
  split
  · exact load_ok _ (by omega) (by simp only [Obj.size]; omega)
  · exact load_ok _ (by omega) (by simp only [Obj.size]; omega)

/-- A scan code without a character goes to `sysKey`, which knows the functions. -/
theorem sysKey_key (k : Keyboard) {code : UInt8} (state : UInt8) (h0 : table normCharset code.toNat = 0) :
    sysKey k code state = pressKey k (keyOf code) (state = KEY_DOWN) := by
  unfold sysKey keyOf
  by_cases hdown : state = KEY_DOWN
  · simp only [hdown, h0, decide_true, if_true]
    split_ifs <;> rfl
  · simp only [hdown, h0, decide_false, if_false, if_true]
    split_ifs <;> rfl

/-- The handler looks the key up in one of the tables, and still treats every key alike. -/
theorem keyboardHandler_key (k : Keyboard) {status keyCode : UInt8} (hstatus : status &&& 0x01 ≠ 0)
    (hcode : KnownCode keyCode) :
    keyboardHandler k status keyCode = pressKey k (keyOf (keyCode &&& 0x7F)) (keyCode &&& 0x80 = KEY_DOWN) := by
  unfold KnownCode at hcode
  generalize hc : keyCode &&& 0x7F = code at hcode
  have hzero := table_eq_zero_iff code.toNat hcode
  rw [keyboardHandler, if_pos hstatus, hc, keyChar_known k hcode, ok_bind]
  by_cases hnorm : table normCharset code.toNat = 0
  · rw [hnorm, hzero.mp hnorm, ite_self, if_pos rfl]
    exact sysKey_key k _ hnorm
  · -- a key with characters is none of the functions
    have hshift : table shiftCharset code.toNat ≠ 0 := fun h => hnorm (hzero.mpr h)
    have hfun : code ∉ [KEY_LSHIFT, KEY_RSHIFT, KEY_CAPSLOCK, KEY_PAGEUP, KEY_PAGEDOWN, KEY_BACKSPACE,
      KEY_ENTER] := fun hmem => hnorm (table_function code hmem).1
    have hchar : (if k.shifting then table shiftCharset code.toNat else table normCharset code.toNat) ≠ 0 := by
      split
      · exact hshift
      · exact hnorm
    have hkey : keyOf code = .char (table normCharset code.toNat) (table shiftCharset code.toNat) := by
      simp only [List.mem_cons, List.not_mem_nil, or_false, not_or] at hfun
      unfold keyOf
      simp only [hfun, hnorm, if_false]
    rw [if_neg hchar, hkey]
    by_cases hdown : keyCode &&& 0x80 = 0
    · rw [if_pos hdown, show decide (keyCode &&& 0x80 = KEY_DOWN) = true from decide_eq_true hdown]
      rfl
    · rw [if_neg hdown, show decide (keyCode &&& 0x80 = KEY_DOWN) = false from decide_eq_false hdown]
      rfl

/-- An interrupt, with the bytes of the status and data ports. -/
def interrupt (k : Keyboard) (p : UInt8 × UInt8) : Except Fault Keyboard := keyboardHandler k p.1 p.2

/-! ## The line editor -/

/-- A line editor: the modifiers, the pending line, and the committed lines with their
    newlines. -/
structure Editor where
  lshift : Bool := false
  rshift : Bool := false
  capsLock : Bool := false
  pending : List UInt8 := []
  committed : List UInt8 := []

namespace Editor

def shifting (e : Editor) : Bool := e.lshift || e.rshift || e.capsLock

/-- What a key does to the line: pressing it types, deletes or commits, and only the
    shift keys are noticed when they are released. -/
def step (e : Editor) : Key → Bool → Editor
  | .char plain shifted, true =>
    { e with pending := e.pending ++ [if e.shifting then shifted else plain] }
  | .lshift, down => { e with lshift := down }
  | .rshift, down => { e with rshift := down }
  | .capsLock, true => { e with capsLock := !e.capsLock }
  | .backspace, true => { e with pending := e.pending.dropLast }
  | .enter, true => { e with pending := [], committed := e.committed ++ e.pending ++ [NEWLINE] }
  | _, _ => e

/-- The same interrupt. -/
def interrupt (e : Editor) (p : UInt8 × UInt8) : Editor :=
  if p.1 &&& 0x01 ≠ 0 then e.step (keyOf (p.2 &&& 0x7F)) (p.2 &&& 0x80 = KEY_DOWN) else e

/-- Neither buffer holds more than its 2048 bytes. -/
def Fits (e : Editor) : Prop := e.pending.length ≤ 2048 ∧ e.committed.length ≤ 2048

instance (e : Editor) : Decidable e.Fits := instDecidableAnd

end Editor

/-- The driver's flags and buffers are the line editor's. -/
structure Tracks (k : Keyboard) (e : Editor) : Prop where
  lshift : k.lshift = e.lshift
  rshift : k.rshift = e.rshift
  capsLock : k.capsLock = e.capsLock
  tempIndex : k.io.tempIndex = e.pending.length
  tempBuffer : k.io.tempBuffer.read 0 e.pending.length = e.pending
  inputIndex : k.io.inputIndex = e.committed.length
  inputBuffer : k.io.inputBuffer.read 0 e.committed.length = e.committed

namespace Tracks

variable {k : Keyboard} {e : Editor} (h : Tracks k e)
include h

theorem shifting : k.shifting = e.shifting := by
  rw [Keyboard.shifting, Editor.shifting, h.lshift, h.rshift, h.capsLock]

theorem typeChar {c : UInt8} (hfits : (e.pending ++ [c]).length ≤ 2048) :
    ∃ m, Keyboard.typeChar k c = .ok { k with
        io := { k.io with tempBuffer := m, tempIndex := k.io.tempIndex + 1 }
        screen := k.screen.putChar c } ∧
      m.read 0 (e.pending ++ [c]).length = e.pending ++ [c] := by
  rw [List.length_append, List.length_singleton] at hfits ⊢
  have hstore := store_ok (o := .tempBuffer) (i := k.io.tempIndex) k.io.tempBuffer c
    (by rw [h.tempIndex]; omega) (by rw [h.tempIndex]; simp only [Obj.size]; omega)
  refine ⟨k.io.tempBuffer.set k.io.tempIndex c, ?_, ?_⟩
  · rw [Keyboard.typeChar]
    dsimp only
    rw [hstore]
    rfl
  · -- the bytes in front of the new one are as before
    rw [Mem.read_succ_last, h.tempIndex, Int.zero_add, Mem.set_same]
    congr 1
    refine Eq.trans (Mem.read_congr fun i hi => ?_) h.tempBuffer
    exact Mem.set_other _ _ (by omega)

theorem deletePending (hfits : e.pending.length ≤ 2048) :
    ∃ k', Keyboard.deletePending k = .ok k' ∧ Tracks k' { e with pending := e.pending.dropLast } := by
  have htemp := h.tempIndex
  rw [Keyboard.deletePending]
  cases hpending : e.pending with
  | nil =>
    -- nothing is pending
    rw [hpending, List.length_nil] at htemp
    rw [if_neg (by omega)]
    refine ⟨k, rfl, h.lshift, h.rshift, h.capsLock, htemp, rfl, h.inputIndex, h.inputBuffer⟩
  | cons c cs =>
    have hlen : (c :: cs).length = cs.length + 1 := rfl
    rw [hpending] at htemp hfits
    rw [if_pos (by omega)]
    have hstore := store_ok (o := .tempBuffer) (i := k.io.tempIndex - 1) k.io.tempBuffer 0
      (by omega) (by simp only [Obj.size]; omega)
    dsimp only
    rw [hstore]
    refine ⟨_, rfl, h.lshift, h.rshift, h.capsLock, ?_, ?_, h.inputIndex, h.inputBuffer⟩
    · dsimp only
      rw [List.length_dropLast, htemp]
      omega
    · -- the bytes in front of the deleted one are as before
      have hread := h.tempBuffer
      rw [hpending] at hread
      have htake := congrArg (List.take cs.length) hread
      rw [Mem.take_read _ _ (by omega)] at htake
      rw [List.length_dropLast, List.dropLast_eq_take, hlen, Nat.add_sub_cancel, ← htake]
      apply Mem.read_congr
      intro i hi
      exact Mem.set_other _ _ (by omega)

/-- A key keeps the driver and the line editor together, as long as its line fits. -/
theorem pressKey {key : Key} {down : Bool} (hfits : e.Fits) (hfits' : (e.step key down).Fits) :
    ∃ k', Keyboard.pressKey k key down = .ok k' ∧ Tracks k' (e.step key down) := by
  have hsame : ∃ k', (.ok k : Except Fault Keyboard) = .ok k' ∧ Tracks k' e := ⟨k, rfl, h⟩
  cases key with
  | lshift => exact ⟨_, rfl, rfl, h.rshift, h.capsLock, h.tempIndex, h.tempBuffer, h.inputIndex, h.inputBuffer⟩
  | rshift => exact ⟨_, rfl, h.lshift, rfl, h.capsLock, h.tempIndex, h.tempBuffer, h.inputIndex, h.inputBuffer⟩
  | other => cases down <;> exact hsame
  | pageUp =>
    cases down with
    | false => exact hsame
    | true => exact ⟨_, rfl, h.lshift, h.rshift, h.capsLock, h.tempIndex, h.tempBuffer, h.inputIndex, h.inputBuffer⟩
  | pageDown =>
    cases down with
    | false => exact hsame
    | true => exact ⟨_, rfl, h.lshift, h.rshift, h.capsLock, h.tempIndex, h.tempBuffer, h.inputIndex, h.inputBuffer⟩
  | capsLock =>
    cases down with
    | false => exact hsame
    | true =>
      exact ⟨_, rfl, h.lshift, h.rshift, congrArg (!·) h.capsLock, h.tempIndex, h.tempBuffer, h.inputIndex,
        h.inputBuffer⟩
  | backspace =>
    cases down with
    | false => exact hsame
    | true => exact h.deletePending hfits.1
  | char plain shifted =>
    cases down with
    | false => exact hsame
    | true =>
      have hstep : e.step (.char plain shifted) true =
          { e with pending := e.pending ++ [if e.shifting then shifted else plain] } := rfl
      rw [hstep] at hfits' ⊢
      have hpress : Keyboard.pressKey k (.char plain shifted) true =
          Keyboard.typeChar k (if e.shifting then shifted else plain) := by rw [← h.shifting]; rfl
      rw [hpress]
      -- the modifiers select the same of the two characters
      obtain ⟨m, htype, hread⟩ := h.typeChar hfits'.1
      refine ⟨_, htype, h.lshift, h.rshift, h.capsLock, ?_, hread, h.inputIndex, h.inputBuffer⟩
      rw [List.length_append, List.length_singleton, Int.natCast_add, Int.natCast_one, ← h.tempIndex]
  | enter =>
    cases down with
    | false => exact hsame
    | true =>
      have hstep : e.step .enter true =
          { e with pending := [], committed := e.committed ++ e.pending ++ [NEWLINE] } := rfl
      rw [hstep] at hfits' ⊢
      -- Enter needs a place for the newline, too
      have hroom := hfits'.2
      rw [List.length_append, List.length_append, List.length_singleton] at hroom
      obtain ⟨m, hcommit, hread⟩ := commitLine_ok h.inputIndex h.inputBuffer h.tempIndex h.tempBuffer hroom
      refine ⟨_, hcommit, h.lshift, h.rshift, h.capsLock, rfl, rfl, ?_, hread⟩
      rw [List.length_append, List.length_append, List.length_singleton, Int.natCast_add, Int.natCast_add,
        Int.natCast_one]

/-- So does an interrupt. -/
theorem interrupt {p : UInt8 × UInt8} (hcode : p.1 &&& 0x01 ≠ 0 → KnownCode p.2) (hfits : e.Fits)
    (hfits' : (e.interrupt p).Fits) :
    ∃ k', k.interrupt p = .ok k' ∧ Tracks k' (e.interrupt p) := by
  rw [Keyboard.interrupt]
  rw [Editor.interrupt] at hfits' ⊢
  by_cases hstatus : p.1 &&& 0x01 ≠ 0
  · rw [if_pos hstatus] at hfits' ⊢
    rw [keyboardHandler_key k hstatus (hcode hstatus)]
    exact h.pressKey hfits hfits'
  · -- no data in the buffer of the controller
    rw [if_neg hstatus, keyboardHandler, if_neg hstatus]
    exact ⟨k, rfl, h⟩

end Tracks

/-- The driver starts with empty buffers. -/
theorem tracks_boot (screen : Screen) : Tracks (boot screen) {} :=
  ⟨rfl, rfl, rfl, rfl, rfl, rfl, rfl⟩

/-- After any interrupts that do not overfill the buffers, `tempBuffer` is the pending line
    and `inputBuffer` is the committed lines of the line editor. -/
theorem keyboard_tracks (screen : Screen) (es : List (UInt8 × UInt8)) (hcode : ∀ p ∈ es, KnownCode p.2)
    (hfits : ∀ n, (run Editor.interrupt {} (es.take n)).Fits) :
    ∃ k, es.foldlM interrupt (boot screen) = .ok k ∧
      Tracks k (run Editor.interrupt {} es) := by
  apply run_simulates Tracks ?_ (tracks_boot screen) hcode hfits
  intro k e p hknown h hfit hfit'
  exact h.interrupt (fun _ => hknown) hfit hfit'

/-- Shift and `a`, a deleted `b`, then Enter. -/
theorem keyboard_tracks_shifted :
    let es : List (UInt8 × UInt8) := [(1, 0x2A), (1, 0x1E), (1, 0x9E), (1, 0xAA), (1, 0x30), (1, 0x0E), (1, 0x1C)]
    (run Editor.interrupt {} es).committed = ['A'.toNat.toUInt8, NEWLINE] ∧
      ∃ k, es.foldlM interrupt (boot { vidmem := fun _ => 0 }) = .ok k ∧
        Tracks k (run Editor.interrupt {} es) := by
  intro es
  refine ⟨by decide, keyboard_tracks _ _ (fun p hp => ?_) fun n => ?_⟩
  · exact of_decide_eq_true (List.all_eq_true.mp (show es.all (fun p => decide (KnownCode p.2)) = true from rfl) p hp)
  obtain hn | hn := Nat.lt_or_ge n 8
  · revert n
    decide
  · rw [List.take_of_length_le (show es.length ≤ n by exact Nat.le_of_succ_le hn)]
    decide

end SoreOS.Keyboard
