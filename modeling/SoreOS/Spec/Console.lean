import SoreOS.Native.System
import SoreOS.Spec.ScreenText
import SoreOS.Spec.ShellAnswers

/-!
# The kernel as a console

A console on which lines are typed, also ahead of the prompt, and answered from a tree of directories. The kernel
shows the text of the console: through the interrupt handler, the two buffers, the file system driver and the log of
the screen.

## Key results

- `Console.step`: the console, as long as it can go on
- `Shows`: the kernel shows it
- `kernel_shows`: so it does after any interrupts and calls
-/

namespace SoreOS

open ForStd Screen Keyboard IoBuffers

/-! ## The console -/

namespace Keyboard

/-- What a key does to the screen, to a line editor. -/
def Editor.keyCalls (e : Editor) : Key → Bool → List Op
  | .char plain shifted, true => [.putChar (if e.shifting then shifted else plain)]
  | .pageUp, true => [.scrollPageUp]
  | .pageDown, true => [.scrollPageDown]
  | .backspace, true => if e.pending = [] then [] else [.delChar]
  | .enter, true => [.putChar NEWLINE]
  | _, _ => []

end Keyboard

/-- A console: the pending line and the queue of the lines before it, the text on the screen and where the shell is,
    and what the shell does next, with the command that it has read. -/
structure Console where
  editor : Editor := {}
  dialogue : Dialogue := {}
  next : InputCall := .clearInputBuffer
  buffer : List UInt8 := []

namespace Console

/-- The text fits the log of the screen, and the lines their buffers. -/
def Fits (v : Console) : Prop :=
  (layout v.dialogue.text).rows.length ≤ 175 ∧ v.editor.pending.length ≤ 2048 ∧ v.editor.committed.length ≤ 2047

instance (v : Console) : Decidable v.Fits := instDecidableAnd

/-- A key. No line is entered ahead of the prompt, and what Backspace deletes is no newline. -/
def key (v : Console) (key : Key) (down : Bool) : Option Console :=
  if v.next = .clearInputBuffer ∧ key = .enter ∧ down = true then none
  else (edits v.dialogue.text (v.editor.keyCalls key down)).map fun text =>
    { v with editor := v.editor.step key down, dialogue := { v.dialogue with text := text } }

def interrupt (v : Console) (status keyCode : UInt8) : Option Console :=
  if status &&& 0x01 = 0 then some v
  else if KnownCode keyCode then v.key (keyOf (keyCode &&& 0x7F)) (keyCode &&& 0x80 = KEY_DOWN)
  else none

/-- The shell has taken a command or a name from the queue. -/
def take (v : Console) (queue : List UInt8) (next : InputCall) : Console :=
  { v with editor := { v.editor with committed := queue }, next := next }

variable (T : DirectoryTree) (contents : LiveFile → List UInt8)

/-- The shell up to its next call for input. The name of a `cd` or `cat` is in the queue together with the command. -/
def call (v : Console) : Option Console :=
  let q := v.editor.committed
  match v.next with
  | .clearInputBuffer =>
    some { v.take [] .getStr with dialogue := v.dialogue.print (v.dialogue.shown ++ str ['$', ' ']) }
  | .getStr =>
    let buffer := token isWhite 256 q
    let rest := remaining buffer.length q
    if q = [] then some v
    else if buffer = str ['c', 'd'] ∨ buffer = str ['c', 'a', 't'] then
      if rest = [] then none else some { v.take rest .getLine with buffer := buffer }
    else
      let v := { v.take [] .clearInputBuffer with buffer := buffer }
      if buffer = str ['l', 's'] then some { v with dialogue := T.list v.dialogue }
      else if buffer = str ['c', 'l', 'e', 'a', 'r'] then some { v with dialogue := { v.dialogue with text := [] } }
      else some v
  | .getLine =>
    let name := token (· = NEWLINE) 256 q
    let v' := v.take [] .clearInputBuffer
    if q = [] then some v
    else if v.buffer = str ['c', 'd'] then
      (T.changeDir v.dialogue name).map fun dialogue => { v' with dialogue := dialogue }
    else some { v' with dialogue := T.printFile contents v.dialogue name }

def step (v : Console) (e : KernelStep) : Option Console :=
  let next := match e with
    | .interrupt status keyCode => v.interrupt status keyCode
    | .call _ => v.call T contents
  next.filter fun v => v.Fits

end Console

/-! ## Keys

All keys but Enter leave the queue alone, whatever is in it. -/

namespace Keyboard

variable {k k' : Keyboard} {e : Editor} {key : Key} {down : Bool}

/-- The driver with an empty queue. -/
def clearInput (k : Keyboard) : Keyboard := { k with io := k.io.clearInputBuffer }

/-- The driver's flags and its pending line are the line editor's. -/
def TracksLine (k : Keyboard) (e : Editor) : Prop := Tracks k.clearInput { e with committed := [] }

theorem pressKey_clearInput (k : Keyboard) (hne : ¬ (key = .enter ∧ down = true)) :
    pressKey k.clearInput key down = (pressKey k key down).map clearInput := by
  cases down with
  | false => cases key <;> rfl
  | true =>
    cases key with
    | enter => exact absurd ⟨rfl, rfl⟩ hne
    | char plain shifted =>
      -- the pending line is stored, the queue is not looked at
      show typeChar k.clearInput (if k.shifting then shifted else plain) = (typeChar k _).map clearInput
      rw [typeChar, typeChar]
      dsimp only [clearInput, clearInputBuffer]
      cases store .tempBuffer k.io.tempBuffer k.io.tempIndex (if k.shifting then shifted else plain) <;> rfl
    | backspace =>
      show deletePending k.clearInput = (deletePending k).map clearInput
      rw [deletePending, deletePending]
      by_cases hpending : k.io.tempIndex > 0
      · have hpending' : k.clearInput.io.tempIndex > 0 := hpending
        rw [if_pos hpending, if_pos hpending']
        dsimp only [clearInput, clearInputBuffer]
        cases store .tempBuffer k.io.tempBuffer (k.io.tempIndex - 1) 0 <;> rfl
      · have hempty : ¬ k.clearInput.io.tempIndex > 0 := hpending
        rw [if_neg hpending, if_neg hempty]
        rfl
    | _ => rfl

theorem pressKey_input (hne : ¬ (key = .enter ∧ down = true)) (hrun : pressKey k key down = .ok k') :
    k'.io.inputIndex = k.io.inputIndex ∧ k'.io.inputBuffer = k.io.inputBuffer := by
  cases down with
  | false => cases key <;> exact Except.ok.inj hrun ▸ ⟨rfl, rfl⟩
  | true =>
    cases key with
    | enter => exact absurd ⟨rfl, rfl⟩ hne
    | char plain shifted =>
      obtain ⟨m, -, hk⟩ := bind_eq_ok.mp hrun
      exact Except.ok.inj hk ▸ ⟨rfl, rfl⟩
    | backspace =>
      change deletePending k = .ok k' at hrun
      rw [deletePending] at hrun
      split at hrun
      · obtain ⟨m, -, hk⟩ := bind_eq_ok.mp hrun
        exact Except.ok.inj hk ▸ ⟨rfl, rfl⟩
      · exact Except.ok.inj hrun ▸ ⟨rfl, rfl⟩
    | _ => exact Except.ok.inj hrun ▸ ⟨rfl, rfl⟩

theorem Editor.step_committed (e : Editor) (q : List UInt8) (hne : ¬ (key = .enter ∧ down = true)) :
    ({ e with committed := q } : Editor).step key down = { e.step key down with committed := q } := by
  cases down with
  | false => cases key <;> rfl
  | true =>
    cases key with
    | enter => exact absurd ⟨rfl, rfl⟩ hne
    | _ => rfl

theorem Editor.committed_step (e : Editor) (hne : ¬ (key = .enter ∧ down = true)) :
    (e.step key down).committed = e.committed := by
  have hstep : e.step key down = { e.step key down with committed := e.committed } := e.step_committed e.committed hne
  rw [hstep]

namespace TracksLine

variable (h : TracksLine k e)
include h

theorem withScreen (screen : Screen) : TracksLine { k with screen := screen } e :=
  ⟨h.lshift, h.rshift, h.capsLock, h.tempIndex, h.tempBuffer, h.inputIndex, h.inputBuffer⟩

theorem keyCalls : k.keyCalls key down = e.keyCalls key down := by
  have hshifting : k.shifting = e.shifting := @Tracks.shifting k.clearInput { e with committed := [] } h
  have htemp : k.io.tempIndex = e.pending.length := h.tempIndex
  cases down with
  | false => cases key <;> rfl
  | true =>
    cases key with
    | char plain shifted =>
      show [Op.putChar (if k.shifting then shifted else plain)] = [.putChar (if e.shifting then shifted else plain)]
      rw [hshifting]
    | backspace =>
      show (if k.io.tempIndex > 0 then [Op.delChar] else []) = if e.pending = [] then [] else [.delChar]
      rw [htemp]
      cases e.pending with
      | nil => rfl
      | cons c cs => rw [if_pos (by rw [List.length_cons]; omega), if_neg (List.cons_ne_nil c cs)]
    | _ => rfl

/-- A key that enters nothing. -/
theorem press (hne : ¬ (key = .enter ∧ down = true)) (hfits : e.pending.length ≤ 2048)
    (hfits' : (e.step key down).pending.length ≤ 2048) :
    ∃ k', pressKey k key down = .ok k' ∧ TracksLine k' (e.step key down) := by
  have hstep := e.step_committed [] hne
  obtain ⟨k₀, hpress, htracks⟩ := @Tracks.pressKey k.clearInput { e with committed := [] } h key down
    ⟨hfits, Nat.zero_le _⟩ (by rw [hstep]; exact ⟨hfits', Nat.zero_le _⟩)
  rw [pressKey_clearInput k hne] at hpress
  rw [hstep] at htracks
  cases hrun : pressKey k key down with
  | error f => rw [hrun] at hpress; cases hpress
  | ok k' =>
    rw [hrun] at hpress
    obtain rfl := Except.ok.inj hpress
    exact ⟨k', rfl, htracks⟩

/-- Enter, with room in the queue. -/
theorem commit (hqueue : Represents k.io e.committed) (hlast : k.io.inputBuffer 2047 = 0)
    (hroom : (e.step .enter true).committed.length ≤ 2047) :
    ∃ k', pressKey k .enter true = .ok k' ∧ TracksLine k' (e.step .enter true) ∧
      Represents k'.io (e.step .enter true).committed ∧ k'.io.inputBuffer 2047 = 0 := by
  have hstep : (e.step .enter true).committed = e.committed ++ e.pending ++ [NEWLINE] := rfl
  have hlen : (e.step .enter true).committed.length = e.committed.length + e.pending.length + 1 := by
    rw [hstep, List.length_append, List.length_append, List.length_singleton]
  have hindex := hqueue.inputIndex
  have htemp : k.io.tempIndex = e.pending.length := h.tempIndex
  have hline : k.io.tempBuffer.read 0 e.pending.length = e.pending := h.tempBuffer
  obtain ⟨m, hcommit, hread⟩ := commitLine_ok hindex hqueue.bytes htemp hline (by omega)
  refine ⟨_, hcommit, ⟨h.lshift, h.rshift, h.capsLock, rfl, rfl, rfl, rfl⟩, ⟨?_, hread, fun _ => List.getLast?_concat,
    by omega⟩, ?_⟩
  · rw [hlen]
    push_cast
    rfl
  · -- the stores are in front of the last byte
    have hrun := hcommit
    rw [commitLine] at hrun
    obtain ⟨m₁, hcopy, hrun⟩ := bind_eq_ok.mp hrun
    obtain ⟨m₂, hstore, hrun⟩ := bind_eq_ok.mp hrun
    obtain ⟨-, -, rfl⟩ := store_eq_ok hstore
    rw [htemp, hindex, Int.toNat_natCast, copyArray_ok _ _ _ _ _ _ (by omega) (by simp only [Obj.size]; omega)
      (by omega) (by simp only [Obj.size]; omega)] at hcopy
    obtain rfl := Except.ok.inj hcopy
    rw [← Except.ok.inj hrun]
    dsimp only
    rw [Mem.set_other _ _ (by omega), Mem.copyFrom_apply, if_neg (by omega), hlast]

end TracksLine

/-- No key types a zero. -/
theorem Editor.step_pending {code : UInt8} (hcode : code.toNat < 90) (e : Editor) (down : Bool)
    (hzero : 0 ∉ e.pending) : 0 ∉ (e.step (keyOf code) down).pending := by
  cases down with
  | false => cases keyOf code <;> exact hzero
  | true =>
    cases hkey : keyOf code with
    | char plain shifted =>
      obtain ⟨hplain, hshifted⟩ := keyOf_char hkey
      -- a code without a character is no character key
      have hnorm : plain ≠ 0 := by
        rw [hplain]
        unfold keyOf at hkey
        split_ifs at hkey
        assumption
      have hshift : shifted ≠ 0 := by
        rw [hshifted]
        exact fun h => hnorm (hplain ▸ (table_eq_zero_iff code.toNat hcode).mpr h)
      show 0 ∉ e.pending ++ [if e.shifting then shifted else plain]
      rw [List.mem_append, List.mem_singleton]
      split
      · exact not_or.mpr ⟨hzero, hshift.symm⟩
      · exact not_or.mpr ⟨hzero, hnorm.symm⟩
    | backspace => exact fun h => hzero (List.dropLast_subset _ h)
    | enter => exact List.not_mem_nil
    | _ => exact hzero

end Keyboard

/-! ## Reading

The last byte of `inputBuffer` stays zero, so every trimming stops inside the array. -/

namespace IoBuffers

theorem trimInput_ok {io : IoBuffers} {q : List UInt8} (h : Represents io q) (hlen : q.length ≤ 2047) {n : Nat}
    (hn : n ≤ q.length) (hlast : io.inputBuffer 2047 = 0) :
    ∃ io', trimInput io n = .ok io' ∧ io'.tempIndex = io.tempIndex ∧ io'.tempBuffer = io.tempBuffer ∧
      io'.inputBuffer 2047 = 0 := by
  have hindex := h.inputIndex
  have hend : (n : Int) + (2047 - n : Nat) = 2047 := by omega
  have hskip := skipWhite_eq io.inputBuffer (2047 - n) 2049 n (by omega) (by omega) (by omega)
    (.inr ⟨by omega, by rw [hend, hlast]; decide⟩)
  have hwhite : ((io.inputBuffer.read n (2047 - n)).takeWhile isWhite).length ≤ 2047 - n :=
    (List.takeWhile_prefix _).length_le.trans (Nat.le_of_eq (Mem.length_read _ _ _))
  generalize ((io.inputBuffer.read n (2047 - n)).takeWhile isWhite).length = w at hskip hwhite
  have hmove := moveArray_ok .inputBuffer io.inputBuffer 0 ((n : Int) + w)
    (n := (io.inputIndex - ((n : Int) + w)).toNat) (by omega) (by simp only [Obj.size]; omega) (by omega)
    (by simp only [Obj.size]; omega)
  refine ⟨{ io with
    inputBuffer := io.inputBuffer.copyUp 0 ((n : Int) + w) (io.inputIndex - ((n : Int) + w)).toNat
    inputIndex := io.inputIndex - ((n : Int) + w) }, ?_, rfl, rfl, ?_⟩
  · rw [trimInput, hskip, ok_bind, hmove]
    rfl
  · dsimp only
    rw [Mem.copyUp_outside _ _ _ _ _ (by omega), hlast]

/-- A reader takes its token, and leaves the rest if there is one. -/
theorem readToken_ok {io : IoBuffers} {q : List UInt8} (h : Represents io q) (hne : q ≠ []) (hlen : q.length ≤ 2047)
    (hlast : io.inputBuffer 2047 = 0) {stop : UInt8 → Bool} (hnl : stop NEWLINE = true) (size : Int) :
    ∃ io', readToken io stop size = .ok (token stop size q, io') ∧ io'.tempIndex = io.tempIndex ∧
      io'.tempBuffer = io.tempBuffer ∧ io'.inputBuffer 2047 = 0 ∧
      (remaining (token stop size q).length q ≠ [] → Represents io' (remaining (token stop size q).length q)) := by
  have hn := length_token_le stop size q
  obtain ⟨io', htrim, htemp, hbuffer, hlast'⟩ := trimInput_ok h hlen hn hlast
  refine ⟨io', by rw [readToken_eq_trimInput h hne hnl, htrim]; rfl, htemp, hbuffer, hlast', fun hrest => ?_⟩
  -- a byte of the rest is not white
  have hstop : TrimStops io (token stop size q).length := by
    left
    rw [h.queue_eq]
    by_contra hwhite
    push Not at hwhite
    exact hrest (List.dropWhile_eq_nil_iff.mpr fun b hb => by simpa using hwhite b hb)
  obtain ⟨io'', htrim', hrep, -⟩ := trimInput_eq h hn hstop
  rw [htrim] at htrim'
  exact Except.ok.inj htrim' ▸ hrep

end IoBuffers

theorem zero_not_mem_token {q : List UInt8} (h : 0 ∉ q) (stop : UInt8 → Bool) (size : Int) : 0 ∉ token stop size q :=
  fun hmem => h ((List.takeWhile_sublist _).mem (List.mem_of_mem_take hmem))

theorem zero_not_mem_remaining {q : List UInt8} (h : 0 ∉ q) (n : Nat) : 0 ∉ remaining n q :=
  fun hmem => h (List.mem_of_mem_drop ((List.dropWhile_sublist _).mem hmem))

/-! ## Answering

What the shell answers depends on the directory and not on the text. -/

/-- A dialogue that goes on from another one. -/
def Dialogue.goesOn (v w : Dialogue) : Dialogue := { w with text := v.text ++ w.text }

/-- The same place, with nothing said. -/
def Dialogue.silent (v : Dialogue) : Dialogue := { v with text := [] }

namespace Dialogue

variable (v : Dialogue) (T : DirectoryTree) (contents : LiveFile → List UInt8) (name : List UInt8)

theorem print_goesOn (text : List UInt8) : v.print text = v.goesOn (v.silent.print text) := rfl

theorem printFile_goesOn : T.printFile contents v name = v.goesOn (T.printFile contents v.silent name) := by
  have hlookup : T.lookup v.silent.cluster name = T.lookup v.cluster name := rfl
  rw [DirectoryTree.printFile, DirectoryTree.printFile, hlookup]
  cases T.lookup v.cluster name with
  | none => exact v.print_goesOn _
  | some f =>
    dsimp only
    split
    · exact v.print_goesOn _
    · exact congrArg (fun w : Dialogue => { w with cluster := 2 }) (v.print_goesOn _)

theorem enter_goesOn (f : LiveFile) :
    DirectoryTree.enter v name f = (DirectoryTree.enter v.silent name f).map v.goesOn := by
  have hsame : ∀ w : Dialogue, w.text = v.text → ({ w with text := v.text ++ [] } : Dialogue) = w := fun w hw => by
    rw [List.append_nil, ← hw]
  rw [DirectoryTree.enter, DirectoryTree.enter]
  split
  · exact congrArg some (hsame { v with path := v.path.dropLast, cluster := f.target } rfl).symm
  split
  · exact congrArg some (hsame { v with cluster := f.target } rfl).symm
  · rw [show v.silent.path = v.path from rfl]
    split
    · exact congrArg some (hsame { v with path := v.path ++ [name], cluster := f.target } rfl).symm
    · rfl

theorem changeDir_goesOn : T.changeDir v name = (T.changeDir v.silent name).map v.goesOn := by
  have hlookup : T.lookup v.silent.cluster name = T.lookup v.cluster name := rfl
  rw [DirectoryTree.changeDir, DirectoryTree.changeDir, hlookup]
  cases T.lookup v.cluster name with
  | none => exact congrArg some (v.print_goesOn _)
  | some f =>
    dsimp only
    split
    · exact v.enter_goesOn name f
    · exact congrArg some (v.print_goesOn _)

end Dialogue

/-! ## The kernel shows the console -/

/-- The kernel has the console's lines in its buffers, its text in the log of the screen, and is where it is. -/
structure Shows (d : Drive) (T : DirectoryTree) (k : Kernel) (v : Console) : Prop where
  line : TracksLine k.keyboard v.editor
  queue : v.next ≠ .clearInputBuffer → Represents k.keyboard.io v.editor.committed
  last : k.keyboard.io.inputBuffer 2047 = 0
  fits : v.Fits
  chars : 0 ∉ v.editor.pending ∧ 0 ∉ v.editor.committed ∧ 0 ∉ v.buffer
  logs : Logs k.keyboard.screen (layout v.dialogue.text)
  files : Converses d T k.files.out k.files v.dialogue.silent
  next : k.next = v.next
  buffer : k.buffer = v.buffer

namespace Shows

variable {d : Drive} {T : DirectoryTree} {k : Kernel} {v v' : Console} (h : Shows d T k v)
include h

/-- A key edits the text and the line. -/
theorem key {code : UInt8} (hcode : code.toNat < 90) {down : Bool} (hkey : v.key (keyOf code) down = some v')
    (hfits : v'.Fits) :
    ∃ k', pressKey k.keyboard (keyOf code) down = .ok k' ∧ Shows d T { k with keyboard := k' } v' := by
  rw [Console.key, Option.ite_none_left_eq_some] at hkey
  obtain ⟨hahead, hkey⟩ := hkey
  obtain ⟨text, hedits, rfl⟩ := Option.map_eq_some_iff.mp hkey
  have hpending := v.editor.step_pending hcode down h.chars.1
  -- the screen follows, whatever the key does to the line
  suffices hline : ∃ k', pressKey k.keyboard (keyOf code) down = .ok k' ∧
      TracksLine k' (v.editor.step (keyOf code) down) ∧
      (v.next ≠ .clearInputBuffer → Represents k'.io (v.editor.step (keyOf code) down).committed) ∧
      k'.io.inputBuffer 2047 = 0 ∧ 0 ∉ (v.editor.step (keyOf code) down).committed by
    obtain ⟨k', hpress, hline, hqueue, hlast, hcommitted⟩ := hline
    have hscreen := pressKey_screen hpress
    rw [h.line.keyCalls] at hscreen
    exact ⟨k', hpress, hline, hqueue, hlast, hfits, ⟨hpending, hcommitted, h.chars.2.2⟩,
      hscreen ▸ h.logs.edits hedits, h.files, h.next, h.buffer⟩
  by_cases henter : keyOf code = .enter ∧ down = true
  · obtain ⟨hk, rfl⟩ := henter
    rw [hk] at hahead hfits ⊢
    have hnext : v.next ≠ .clearInputBuffer := fun hnext => hahead ⟨hnext, rfl, rfl⟩
    obtain ⟨k', hpress, hline, hqueue, hlast⟩ := h.line.commit (h.queue hnext) h.last hfits.2.2
    refine ⟨k', hpress, hline, fun _ => hqueue, hlast, ?_⟩
    show 0 ∉ v.editor.committed ++ v.editor.pending ++ [NEWLINE]
    rw [List.mem_append, List.mem_append, List.mem_singleton]
    exact not_or.mpr ⟨not_or.mpr ⟨h.chars.2.1, h.chars.1⟩, by decide⟩
  · obtain ⟨k', hpress, hline⟩ := h.line.press henter h.fits.2.1 hfits.2.1
    obtain ⟨hindex, hbuffer⟩ := pressKey_input henter hpress
    rw [v.editor.committed_step henter]
    refine ⟨k', hpress, hline, fun hnext => ?_, hbuffer ▸ h.last, h.chars.2.1⟩
    have hqueue := h.queue hnext
    exact ⟨hindex ▸ hqueue.inputIndex, hbuffer ▸ hqueue.bytes, hqueue.ends, hqueue.fits⟩

/-- An interrupt. -/
theorem interrupt {status keyCode : UInt8} (hstep : v.interrupt status keyCode = some v') (hfits : v'.Fits) :
    ∃ k', k.step d (.interrupt status keyCode) = .ok k' ∧ Shows d T k' v' := by
  rw [Kernel.step]
  rw [Console.interrupt] at hstep
  by_cases hstatus : status &&& 0x01 = 0
  · -- no data in the buffer of the controller
    rw [if_pos hstatus] at hstep
    obtain rfl := Option.some.inj hstep
    rw [keyboardHandler, if_neg (not_not.mpr hstatus)]
    exact ⟨k, rfl, h⟩
  · rw [if_neg hstatus, Option.ite_none_right_eq_some] at hstep
    obtain ⟨hcode, hkey⟩ := hstep
    obtain ⟨k', hpress, hshows⟩ := h.key hcode hkey hfits
    rw [keyboardHandler_key k.keyboard hstatus hcode, hpress]
    exact ⟨_, rfl, hshows⟩

/-- The shell has read from its input. -/
theorem take (next : InputCall) {io : IoBuffers} {queue : List UInt8} (htemp : io.tempIndex = k.keyboard.io.tempIndex)
    (hbuffer : io.tempBuffer = k.keyboard.io.tempBuffer) (hlast : io.inputBuffer 2047 = 0)
    (hqueue : next ≠ .clearInputBuffer → Represents io queue) (hlen : queue.length ≤ 2047) (hzero : 0 ∉ queue) :
    Shows d T { k with keyboard := { k.keyboard with io := io }, next := next } (v.take queue next) where
  line := ⟨h.line.lshift, h.line.rshift, h.line.capsLock, htemp.trans h.line.tempIndex,
    (congrArg (Mem.read · 0 v.editor.pending.length) hbuffer).trans h.line.tempBuffer, rfl, rfl⟩
  queue := hqueue
  last := hlast
  fits := ⟨h.fits.1, h.fits.2.1, hlen⟩
  chars := ⟨h.chars.1, hzero, h.chars.2.2⟩
  logs := h.logs
  files := h.files
  next := rfl
  buffer := h.buffer

theorem withBuffer {buffer : List UInt8} (hzero : 0 ∉ buffer) :
    Shows d T { k with buffer := buffer } { v with buffer := buffer } :=
  ⟨h.line, h.queue, h.last, h.fits, ⟨h.chars.1, h.chars.2.1, hzero⟩, h.logs, h.files, h.next, rfl⟩

/-- The screen is cleared. -/
theorem clear :
    Shows d T { k with keyboard := { k.keyboard with screen := k.keyboard.screen.clearScreen } }
      { v with dialogue := v.dialogue.silent } :=
  ⟨h.line.withScreen _, h.queue, h.last, ⟨show (layout []).rows.length ≤ 175 by decide, h.fits.2⟩, h.chars,
    logs_clearScreen k.keyboard.screen, h.files, h.next, h.buffer⟩

theorem setFontColor (color : UInt8) : Shows d T (k.setFontColor color) v :=
  ⟨h.line.withScreen _, h.queue, h.last, h.fits, h.chars,
    h.logs.step (show CanEdit _ (.setFontColor color) from trivial), h.files, h.next, h.buffer⟩

/-- The file system driver has printed. -/
theorem print {files : FsState} {w : Dialogue} (hfiles : Converses d T k.files.out files w)
    (hroom : (layout (v.dialogue.goesOn w).text).rows.length ≤ 175) :
    Shows d T (k.print files) { v with dialogue := v.dialogue.goesOn w } where
  line := h.line.withScreen _
  queue := h.queue
  last := h.last
  fits := ⟨hroom, h.fits.2⟩
  chars := h.chars
  logs := by
    have hdrop : files.out.drop k.files.out.length = w.text := by rw [hfiles.out, List.drop_left]
    rw [Kernel.print]
    dsimp only
    rw [hdrop]
    exact h.logs.putText hroom
  files := ⟨hfiles.works, hfiles.path, hfiles.up, (List.append_nil _).symm⟩
  next := h.next
  buffer := h.buffer

/-- The prompt. -/
theorem prompt (hroom : (layout (v.dialogue.print (v.dialogue.shown ++ str ['$', ' '])).text).rows.length ≤ 175) :
    Shows d T k.prompt { v with dialogue := v.dialogue.print (v.dialogue.shown ++ str ['$', ' ']) } := by
  have htwo : v.dialogue.print (v.dialogue.shown ++ str ['$', ' ']) =
      (v.dialogue.print v.dialogue.shown).print (str ['$', ' ']) := by
    rw [Dialogue.print, Dialogue.print, Dialogue.print, List.append_assoc]
  rw [htwo] at hroom ⊢
  have hpath := (h.setFontColor COLOR_LIGHT_GREEN).print (h.files.print v.dialogue.shown)
    ((length_rows_layout_le _ _).trans hroom)
  have hdollar := hpath.setFontColor COLOR_WHITE
  have hprompt := hdollar.print (hdollar.files.print (str ['$', ' '])) hroom
  have hshown : getWorkingDirectory (k.setFontColor COLOR_LIGHT_GREEN).files = v.dialogue.shown := h.files.shown
  rw [Kernel.prompt, hshown]
  exact hprompt

/-- The call that waits for input finds some exactly if the queue is not empty. -/
theorem inputIndex_eq_zero (hnext : v.next ≠ .clearInputBuffer) :
    k.keyboard.io.inputIndex = 0 ↔ v.editor.committed = [] := by
  rw [(h.queue hnext).inputIndex, ← List.length_eq_zero_iff]
  omega

variable {contents : LiveFile → List UInt8}

theorem call_clearInputBuffer (hnext : v.next = .clearInputBuffer) (hcall : v.call T contents = some v')
    (hfits : v'.Fits) (file : File) : ∃ k', k.call d file = .ok k' ∧ Shows d T k' v' := by
  rw [Console.call, hnext] at hcall
  obtain rfl := Option.some.inj hcall
  have hprompt := h.prompt hfits.1
  rw [Kernel.call, h.next, hnext]
  exact ⟨_, rfl, hprompt.take .getStr rfl rfl hprompt.last
    (fun _ => ⟨rfl, rfl, fun hne => absurd rfl hne, Nat.zero_le _⟩) (Nat.zero_le _) List.not_mem_nil⟩

variable (hdisk : T.OnDisk d.disk (volumeHeader d.disk)) (hl : StandardLayout (volumeHeader d.disk))
  (hgood : ∀ n, d.good n = true)
include hdisk hl hgood

theorem call_getStr (hnext : v.next = .getStr) (hcall : v.call T contents = some v') (hfits : v'.Fits) (file : File) :
    ∃ k', k.call d file = .ok k' ∧ Shows d T k' v' := by
  have hwaits : v.next ≠ .clearInputBuffer := by rw [hnext]; decide
  rw [Console.call, hnext] at hcall
  rw [Kernel.call, h.next, hnext]
  dsimp only at hcall ⊢
  by_cases hempty : v.editor.committed = []
  · -- the main loop waits
    rw [if_pos hempty] at hcall
    obtain rfl := Option.some.inj hcall
    rw [if_pos ((h.inputIndex_eq_zero hwaits).mpr hempty)]
    exact ⟨k, rfl, h⟩
  rw [if_neg hempty] at hcall
  rw [if_neg ((h.inputIndex_eq_zero hwaits).not.mpr hempty)]
  obtain ⟨io, hread, htemp, hbuffer, hlast, hrest⟩ := @readToken_ok _ _ (h.queue hwaits) hempty h.fits.2.2 h.last
    isWhite (by decide) 256
  have hzero := zero_not_mem_token h.chars.2.1 isWhite 256
  have hrestzero := zero_not_mem_remaining h.chars.2.1 (token isWhite 256 v.editor.committed).length
  have hrestlen : (remaining (token isWhite 256 v.editor.committed).length v.editor.committed).length ≤ 2047 :=
    (List.dropWhile_sublist _).length_le.trans ((List.drop_sublist _ _).length_le.trans h.fits.2.2)
  rw [show k.keyboard.io.getStr 256 = _ from hread, ok_bind]
  generalize token isWhite 256 v.editor.committed = buffer at hcall hzero hrest hrestzero hrestlen ⊢
  have htaken := (h.take .clearInputBuffer htemp hbuffer hlast (fun hne => absurd rfl hne) (Nat.zero_le _)
    List.not_mem_nil).withBuffer hzero
  dsimp only
  rw [if_congr (strcmp_eq_zero_iff hzero (show 0 ∉ str ['c', 'd'] by decide)) rfl rfl,
    if_congr (strcmp_eq_zero_iff hzero (show 0 ∉ str ['c', 'a', 't'] by decide)) rfl rfl,
    if_congr (strcmp_eq_zero_iff hzero (show 0 ∉ str ['l', 's'] by decide)) rfl rfl,
    if_congr (strcmp_eq_zero_iff hzero (show 0 ∉ str ['c', 'l', 'e', 'a', 'r'] by decide)) rfl rfl]
  by_cases hname : buffer = str ['c', 'd'] ∨ buffer = str ['c', 'a', 't']
  · -- the rest of the line is read next
    rw [if_pos hname, Option.ite_none_left_eq_some] at hcall
    obtain ⟨hrest', hcall⟩ := hcall
    obtain rfl := Option.some.inj hcall
    have hwaiting := (h.take .getLine htemp hbuffer hlast (fun _ => hrest hrest') hrestlen hrestzero).withBuffer
      hzero
    obtain rfl | rfl := hname
    · exact ⟨_, rfl, hwaiting⟩
    · exact ⟨_, rfl, hwaiting⟩
  rw [if_neg hname] at hcall
  obtain ⟨hcd, hcat⟩ := not_or.mp hname
  rw [if_neg hcd, if_neg hcat]
  by_cases hls : buffer = str ['l', 's']
  · rw [if_pos hls] at hcall ⊢
    obtain rfl := Option.some.inj hcall
    obtain ⟨files, hrun, hfiles⟩ := h.files.listFiles hdisk hl hgood
    rw [hrun]
    exact ⟨_, rfl, htaken.print hfiles hfits.1⟩
  rw [if_neg hls] at hcall ⊢
  by_cases hclear : buffer = str ['c', 'l', 'e', 'a', 'r']
  · rw [if_pos hclear] at hcall ⊢
    obtain rfl := Option.some.inj hcall
    exact ⟨_, rfl, htaken.clear⟩
  · rw [if_neg hclear] at hcall ⊢
    obtain rfl := Option.some.inj hcall
    exact ⟨_, rfl, htaken⟩

theorem call_getLine (hfiles : T.HoldsFiles d.disk (volumeHeader d.disk) contents) (hnext : v.next = .getLine)
    (hcall : v.call T contents = some v') (hfits : v'.Fits) (file : File) :
    ∃ k', k.call d file = .ok k' ∧ Shows d T k' v' := by
  have hwaits : v.next ≠ .clearInputBuffer := by rw [hnext]; decide
  rw [Console.call, hnext] at hcall
  rw [Kernel.call, h.next, hnext]
  dsimp only at hcall ⊢
  by_cases hempty : v.editor.committed = []
  · rw [if_pos hempty] at hcall
    obtain rfl := Option.some.inj hcall
    rw [if_pos ((h.inputIndex_eq_zero hwaits).mpr hempty)]
    exact ⟨k, rfl, h⟩
  rw [if_neg hempty] at hcall
  rw [if_neg ((h.inputIndex_eq_zero hwaits).not.mpr hempty)]
  obtain ⟨io, hread, htemp, hbuffer, hlast, -⟩ := @readToken_ok _ _ (h.queue hwaits) hempty h.fits.2.2 h.last
    (· = NEWLINE) (by decide) 256
  have hzero := zero_not_mem_token h.chars.2.1 (· = NEWLINE) 256
  rw [show k.keyboard.io.getLine 256 NEWLINE = _ from hread, ok_bind]
  generalize token (· = NEWLINE) 256 v.editor.committed = name at hcall hzero ⊢
  have htaken := h.take .clearInputBuffer htemp hbuffer hlast (fun hne => absurd rfl hne) (Nat.zero_le _)
    List.not_mem_nil
  have hchars : 0 ∉ k.buffer := h.buffer ▸ h.chars.2.2
  dsimp only
  rw [← h.buffer] at hcall
  rw [if_congr (strcmp_eq_zero_iff hchars (show 0 ∉ str ['c', 'd'] by decide)) rfl rfl]
  by_cases hcd : k.buffer = str ['c', 'd']
  · rw [if_pos hcd, Dialogue.changeDir_goesOn] at hcall
    rw [if_pos hcd]
    obtain ⟨_, hgoes, rfl⟩ := Option.map_eq_some_iff.mp hcall
    obtain ⟨w, hanswer, rfl⟩ := Option.map_eq_some_iff.mp hgoes
    have hmirrors := h.files.changeDir hdisk hl hgood hfiles hzero file
    rw [hanswer] at hmirrors
    generalize changeDirCMD d k.files name file = r at hmirrors ⊢
    cases hmirrors with
    | succeeds hw => exact ⟨_, rfl, htaken.print hw hfits.1⟩
  · rw [if_neg hcd, Dialogue.printFile_goesOn] at hcall
    rw [if_neg hcd]
    obtain rfl := Option.some.inj hcall
    obtain ⟨files, hrun, hw⟩ := h.files.printFile hdisk hl hgood hfiles hzero file
    rw [hrun]
    exact ⟨_, rfl, htaken.print hw hfits.1⟩

/-- A step of the console is one of the kernel. -/
theorem step (hfiles : T.HoldsFiles d.disk (volumeHeader d.disk) contents) {e : KernelStep}
    (hstep : v.step T contents e = some v') : ∃ k', k.step d e = .ok k' ∧ Shows d T k' v' := by
  obtain ⟨hstep, hfits⟩ := Option.filter_eq_some_iff.mp hstep
  have hfits := of_decide_eq_true hfits
  cases e with
  | interrupt status keyCode => exact h.interrupt hstep hfits
  | call file =>
    cases hnext : v.next with
    | clearInputBuffer => exact h.call_clearInputBuffer hnext hstep hfits file
    | getStr => exact h.call_getStr hdisk hl hgood hnext hstep hfits file
    | getLine => exact h.call_getLine hdisk hl hgood hfiles hnext hstep hfits file

/-- A run of the console is one of the kernel. -/
theorem run (hfiles : T.HoldsFiles d.disk (volumeHeader d.disk) contents) {es : List KernelStep}
    (hrun : es.foldlM (Console.step T contents) v = some v') :
    ∃ k', es.foldlM (Kernel.step d) k = .ok k' ∧ Shows d T k' v' := by
  have hstep : ∀ k v e v', Shows d T k v → Console.step T contents v e = some v' →
      ∃ k', Kernel.step d k e = .ok k' ∧ Shows d T k' v' :=
    fun _ _ _ _ h he => h.step hdisk hl hgood hfiles he
  exact run_leads hstep h hrun

end Shows

/-- The start of `main`. -/
theorem shows_boot {d : Drive} (T : DirectoryTree) (hid : identify d = some true) (hgood : ∀ n, d.good n = true)
    (hl : StandardLayout (volumeHeader d.disk)) {cs : List Nat} (hroot : FatChain d.disk (volumeHeader d.disk) (2 :: cs))
    (hlen : (2 :: cs).length ≤ 8) (screen : Screen) : ∃ k, Kernel.boot d screen = some (.ok k) ∧ Shows d T k {} := by
  obtain ⟨s, hload, hboot⟩ := loadFileSystem_good hid hgood hl hroot hlen
  refine ⟨_, by rw [Kernel.boot, hload]; rfl, ?_⟩
  exact ⟨⟨rfl, rfl, rfl, rfl, rfl, rfl, rfl⟩, fun hne => absurd rfl hne, rfl, by decide,
    ⟨List.not_mem_nil, List.not_mem_nil, List.not_mem_nil⟩, logs_clearScreen _, hboot.converses (.load hload) T, rfl, rfl⟩

/-! ## Runs -/

/-- On a volume whose directories each fit in a cluster, with all reads succeeding: from the start of `main` on, for
    any interrupts and parts of the main loop in any order, the kernel goes on as long as the console does, the log of
    its screen holds the console's text, and its path is the console's. -/
theorem kernel_shows {d : Drive} {T : DirectoryTree} {contents : LiveFile → List UInt8} (hid : identify d = some true)
    (hgood : ∀ n, d.good n = true) (hl : StandardLayout (volumeHeader d.disk)) {cs : List Nat}
    (hroot : FatChain d.disk (volumeHeader d.disk) (2 :: cs)) (hlen : (2 :: cs).length ≤ 8)
    (hdisk : T.OnDisk d.disk (volumeHeader d.disk)) (hfiles : T.HoldsFiles d.disk (volumeHeader d.disk) contents)
    (screen : Screen) :
    ∃ k₀, Kernel.boot d screen = some (.ok k₀) ∧
      ∀ (es : List KernelStep) (v : Console), es.foldlM (Console.step T contents) {} = some v →
      ∃ k, es.foldlM (Kernel.step d) k₀ = .ok k ∧ LogsText k.keyboard.screen v.dialogue.text ∧
        HoldsPath k.files.sysPath v.dialogue.path := by
  obtain ⟨k₀, hboot, hstart⟩ := shows_boot T hid hgood hl hroot hlen screen
  refine ⟨k₀, hboot, fun es v hrun => ?_⟩
  obtain ⟨k, hkernel, hshows⟩ := hstart.run hdisk hl hgood hfiles hrun
  exact ⟨k, hkernel, hshows.logs.logsText, hshows.files.path⟩

/-- `ls` is typed behind the prompt. -/
theorem kernel_shows_ls : ∃ k₀ k, Kernel.boot (healthyDrive subDisk) { vidmem := fun _ => 0 } = some (.ok k₀) ∧
    [.call {}, .interrupt 1 0x26, .interrupt 1 0x1F, .interrupt 1 0x1C, .call {}, .call {}].foldlM
      (Kernel.step (healthyDrive subDisk)) k₀ = .ok k ∧
    LogsText k.keyboard.screen
      (str ['/', '$', ' ', 'l', 's', '\n'] ++ (subEntry.raw ++ [NEWLINE]) ++ str ['/', '$', ' ']) := by
  have hhdr : volumeHeader (healthyDrive subDisk).disk = defaultHeader := volumeHeader_subDisk
  obtain ⟨k₀, hboot, hruns⟩ := @kernel_shows (healthyDrive subDisk) subTree subContents rfl (healthyDrive_good _)
    (hhdr ▸ defaultHeader_layout) [] (hhdr ▸ subDisk_root) (by decide) (hhdr ▸ subTree_onDisk)
    (hhdr ▸ subTree_holdsFiles) { vidmem := fun _ => 0 }
  obtain ⟨k, hrun, hlogs, -⟩ := hruns
    [.call {}, .interrupt 1 0x26, .interrupt 1 0x1F, .interrupt 1 0x1C, .call {}, .call {}] _ rfl
  exact ⟨k₀, k, hboot, hrun, hlogs⟩

end SoreOS
