import SoreOS.Native.System
import SoreOS.Spec.FatCache
import SoreOS.Spec.LineEcho
import SoreOS.Spec.Shell

/-!
# Runs of the kernel

The kernel is put together from its input and its shell: whatever interrupts come between the parts of the main loop,
the keyboard driver and the buffers go through a run of the input alone, and the file system driver through rounds of
the shell alone.

## Key results

- `Kernel.step_input`, `Kernel.step_rounds`: a step, to the input and to the shell
- `kernel_run`: a run
-/

namespace SoreOS

open ForStd Keyboard

/-! ## A part of the main loop -/

/-- The kernel has read from its input, and the command in its buffer. -/
def Kernel.took (k : Kernel) (io : IoBuffers) (buffer : List UInt8) (next : InputCall) : Kernel :=
  { k with keyboard := { k.keyboard with io := io }, next := next, buffer := buffer }

/-- A command that the rest of the line belongs to. -/
def ReadsLine (buffer : List UInt8) : Prop :=
  strcmp buffer (str ['c', 'd']) = 0 ∨ strcmp buffer (str ['c', 'a', 't']) = 0

instance (buffer : List UInt8) : Decidable (ReadsLine buffer) := inferInstanceAs (Decidable (_ ∨ _))

/-- What the main loop does up to its next call for input. -/
inductive Kernel.Called (d : Drive) (k : Kernel) (file : File) : Kernel → Prop where
  | prompt (hnext : k.next = .clearInputBuffer) :
    Called d k file { k.prompt with
      keyboard := { k.prompt.keyboard with io := k.prompt.keyboard.io.clearInputBuffer }, next := .getStr }
  | waits (hnext : k.next ≠ .clearInputBuffer) (hempty : k.keyboard.io.inputIndex = 0) : Called d k file k
  | command {buffer : List UInt8} {io : IoBuffers} (hnext : k.next = .getStr) (hinput : k.keyboard.io.inputIndex ≠ 0)
    (hread : k.keyboard.io.getStr 256 = .ok (buffer, io)) (hcommand : ReadsLine buffer) :
    Called d k file (k.took io buffer .getLine)
  | list {buffer : List UInt8} {io : IoBuffers} {files : FsState} (hnext : k.next = .getStr)
    (hinput : k.keyboard.io.inputIndex ≠ 0) (hread : k.keyboard.io.getStr 256 = .ok (buffer, io))
    (hcommand : ¬ ReadsLine buffer) (hls : strcmp buffer (str ['l', 's']) = 0) (hlist : listFiles d k.files = .ok files) :
    Called d k file ((k.took io buffer .clearInputBuffer).print files)
  | clear {buffer : List UInt8} {io : IoBuffers} (hnext : k.next = .getStr) (hinput : k.keyboard.io.inputIndex ≠ 0)
    (hread : k.keyboard.io.getStr 256 = .ok (buffer, io)) (hcommand : ¬ ReadsLine buffer)
    (hls : strcmp buffer (str ['l', 's']) ≠ 0) :
    Called d k file { k.took io buffer .clearInputBuffer with
      keyboard := { k.keyboard with io := io, screen := k.keyboard.screen.clearScreen } }
  | unknown {buffer : List UInt8} {io : IoBuffers} (hnext : k.next = .getStr) (hinput : k.keyboard.io.inputIndex ≠ 0)
    (hread : k.keyboard.io.getStr 256 = .ok (buffer, io)) (hcommand : ¬ ReadsLine buffer)
    (hls : strcmp buffer (str ['l', 's']) ≠ 0) : Called d k file (k.took io buffer .clearInputBuffer)
  | changeDir {line : List UInt8} {io : IoBuffers} {files : FsState} (hnext : k.next = .getLine)
    (hinput : k.keyboard.io.inputIndex ≠ 0) (hread : k.keyboard.io.getLine 256 NEWLINE = .ok (line, io))
    (hcd : strcmp k.buffer (str ['c', 'd']) = 0) (hchange : changeDirCMD d k.files line file = .ok files) :
    Called d k file ((k.took io k.buffer .clearInputBuffer).print files)
  | printFile {line : List UInt8} {io : IoBuffers} {files : FsState} (hnext : k.next = .getLine)
    (hinput : k.keyboard.io.inputIndex ≠ 0) (hread : k.keyboard.io.getLine 256 NEWLINE = .ok (line, io))
    (hcd : strcmp k.buffer (str ['c', 'd']) ≠ 0) (hprint : printFileCMD d k.files line file = .ok files) :
    Called d k file ((k.took io k.buffer .clearInputBuffer).print files)

theorem Kernel.called_of_call {d : Drive} {k k' : Kernel} {file : File} (hrun : k.call d file = .ok k') :
    k.Called d file k' := by
  rw [call] at hrun
  cases hnext : k.next with
  | clearInputBuffer =>
    rw [hnext] at hrun
    exact Except.ok.inj hrun ▸ .prompt hnext
  | getStr =>
    rw [hnext] at hrun
    have hwaits : k.next ≠ .clearInputBuffer := by rw [hnext]; decide
    dsimp only at hrun
    by_cases hinput : k.keyboard.io.inputIndex = 0
    · rw [if_pos hinput] at hrun
      exact Except.ok.inj hrun ▸ .waits hwaits hinput
    rw [if_neg hinput] at hrun
    obtain ⟨⟨buffer, io⟩, hread, hrun⟩ := bind_eq_ok.mp hrun
    dsimp only at hrun
    by_cases hcd : strcmp buffer (str ['c', 'd']) = 0
    · rw [if_pos hcd] at hrun
      exact Except.ok.inj hrun ▸ .command hnext hinput hread (.inl hcd)
    rw [if_neg hcd] at hrun
    by_cases hcat : strcmp buffer (str ['c', 'a', 't']) = 0
    · rw [if_pos hcat] at hrun
      exact Except.ok.inj hrun ▸ .command hnext hinput hread (.inr hcat)
    rw [if_neg hcat] at hrun
    have hcommand : ¬ ReadsLine buffer := not_or.mpr ⟨hcd, hcat⟩
    by_cases hls : strcmp buffer (str ['l', 's']) = 0
    · rw [if_pos hls] at hrun
      obtain ⟨files, hlist, hk⟩ := bind_eq_ok.mp hrun
      exact Except.ok.inj hk ▸ .list hnext hinput hread hcommand hls hlist
    rw [if_neg hls] at hrun
    split at hrun
    · exact Except.ok.inj hrun ▸ .clear hnext hinput hread hcommand hls
    · exact Except.ok.inj hrun ▸ .unknown hnext hinput hread hcommand hls
  | getLine =>
    rw [hnext] at hrun
    have hwaits : k.next ≠ .clearInputBuffer := by rw [hnext]; decide
    dsimp only at hrun
    by_cases hinput : k.keyboard.io.inputIndex = 0
    · rw [if_pos hinput] at hrun
      exact Except.ok.inj hrun ▸ .waits hwaits hinput
    rw [if_neg hinput] at hrun
    obtain ⟨⟨line, io⟩, hread, hrun⟩ := bind_eq_ok.mp hrun
    dsimp only at hrun
    by_cases hcd : strcmp k.buffer (str ['c', 'd']) = 0
    · rw [if_pos hcd] at hrun
      obtain ⟨files, hchange, hk⟩ := bind_eq_ok.mp hrun
      exact Except.ok.inj hk ▸ .changeDir hnext hinput hread hcd hchange
    · rw [if_neg hcd] at hrun
      obtain ⟨files, hprint, hk⟩ := bind_eq_ok.mp hrun
      exact Except.ok.inj hk ▸ .printFile hnext hinput hread hcd hprint

/-! ## The input -/

/-- The part of a kernel that reads the input, with another screen. -/
def Kernel.input (k : Kernel) (screen : Screen) : InputState := ⟨{ k.keyboard with screen := screen }, k.next⟩

/-- The same step of the input. -/
def KernelStep.input : KernelStep → InputStep
  | .interrupt status keyCode => .interrupt status keyCode
  | .call _ => .call

/-- A key does not look at the screen. -/
theorem pressKey_withScreen (k : Keyboard) (key : Key) (down : Bool) (screen : Screen) :
    ∃ screen', pressKey { k with screen := screen } key down =
      (pressKey k key down).map fun k' => { k' with screen := screen' } := by
  cases down with
  | false => cases key <;> exact ⟨screen, rfl⟩
  | true =>
    cases key with
    | char plain shifted =>
      -- the character goes to the screen and to the pending line
      refine ⟨screen.putChar (if k.shifting then shifted else plain), ?_⟩
      show typeChar { k with screen := screen } (if k.shifting then shifted else plain) = (typeChar k _).map _
      rw [typeChar, typeChar]
      dsimp only
      cases store .tempBuffer k.io.tempBuffer k.io.tempIndex (if k.shifting then shifted else plain) <;> rfl
    | backspace =>
      show ∃ screen', deletePending { k with screen := screen } = (deletePending k).map _
      rw [deletePending, deletePending]
      dsimp only
      -- Backspace reaches back to the beginning of the pending line only
      by_cases hpending : k.io.tempIndex > 0
      · refine ⟨screen.delChar, ?_⟩
        rw [if_pos hpending, if_pos hpending]
        cases store .tempBuffer k.io.tempBuffer (k.io.tempIndex - 1) 0 <;> rfl
      · refine ⟨screen, ?_⟩
        rw [if_neg hpending, if_neg hpending]
        rfl
    | enter =>
      -- the line feed is printed, and the pending line goes into the queue
      refine ⟨screen.putChar NEWLINE, ?_⟩
      show commitLine { k with screen := screen } = (commitLine k).map _
      rw [commitLine, commitLine]
      dsimp only
      cases copyArray .inputBuffer k.io.inputBuffer k.io.inputIndex .tempBuffer k.io.tempBuffer 0
        k.io.tempIndex.toNat with
      | error f => rfl
      | ok m =>
        rw [ok_bind, ok_bind]
        cases store .inputBuffer m (k.io.inputIndex + k.io.tempIndex) NEWLINE <;> rfl
    | pageUp => exact ⟨screen.scrollPageUp, rfl⟩
    | pageDown => exact ⟨screen.scrollPageDown, rfl⟩
    | _ => exact ⟨screen, rfl⟩

/-- Nor does an interrupt. -/
theorem keyboardHandler_withScreen {k k' : Keyboard} {status keyCode : UInt8}
    (hrun : keyboardHandler k status keyCode = .ok k') (screen : Screen) :
    ∃ screen', keyboardHandler { k with screen := screen } status keyCode = .ok { k' with screen := screen' } := by
  by_cases hstatus : status &&& 0x01 ≠ 0
  · have hcode := @knownCode_of_ok k k' (status, keyCode) hstatus hrun
    rw [keyboardHandler_key k hstatus hcode] at hrun
    obtain ⟨screen', hpress⟩ := pressKey_withScreen k (keyOf (keyCode &&& 0x7F)) (keyCode &&& 0x80 = KEY_DOWN) screen
    rw [hrun] at hpress
    exact ⟨screen', (keyboardHandler_key _ hstatus hcode).trans hpress⟩
  · rw [keyboardHandler, if_neg hstatus] at hrun ⊢
    obtain rfl := Except.ok.inj hrun
    exact ⟨screen, rfl⟩

namespace Kernel

variable {d : Drive} {k k' : Kernel}

/-- A call that reads a command. -/
theorem call_getStr (hnext : k.next = .getStr) (hinput : k.keyboard.io.inputIndex ≠ 0) {buffer : List UInt8} {io : IoBuffers}
    (hread : k.keyboard.io.getStr 256 = .ok (buffer, io)) (screen : Screen) :
    (k.input screen).call = .ok ⟨{ k.keyboard with io := io, screen := screen },
      if ReadsLine buffer then .getLine else .clearInputBuffer⟩ := by
  rw [InputState.call, show (k.input screen).next = .getStr from hnext]
  exact (if_neg hinput).trans (bind_of_ok hread rfl)

/-- A call that reads the rest of the line. -/
theorem call_getLine (hnext : k.next = .getLine) (hinput : k.keyboard.io.inputIndex ≠ 0) {line : List UInt8} {io : IoBuffers}
    (hread : k.keyboard.io.getLine 256 NEWLINE = .ok (line, io)) (screen : Screen) :
    (k.input screen).call = .ok ⟨{ k.keyboard with io := io, screen := screen }, .clearInputBuffer⟩ := by
  rw [InputState.call, show (k.input screen).next = .getLine from hnext]
  exact (if_neg hinput).trans (bind_of_ok hread rfl)

/-- A call for input is one of the input alone, whatever the command does then. -/
theorem Called.input {file : File} (h : k.Called d file k') (screen : Screen) :
    (k.input screen).call = .ok (k'.input screen) := by
  cases h with
  | prompt hnext =>
    rw [InputState.call, show (k.input screen).next = .clearInputBuffer from hnext]
    rfl
  | waits hnext hempty =>
    rw [InputState.call]
    cases hcall : (k.input screen).next with
    | clearInputBuffer => exact absurd hcall hnext
    | getStr => exact if_pos hempty
    | getLine => exact if_pos hempty
  | command hnext hinput hread hcommand =>
    rw [call_getStr hnext hinput hread, if_pos hcommand]
    rfl
  | list hnext hinput hread hcommand hls hlist =>
    rw [call_getStr hnext hinput hread, if_neg hcommand]
    rfl
  | clear hnext hinput hread hcommand hls =>
    rw [call_getStr hnext hinput hread, if_neg hcommand]
    rfl
  | unknown hnext hinput hread hcommand hls =>
    rw [call_getStr hnext hinput hread, if_neg hcommand]
    rfl
  | changeDir hnext hinput hread hcd hchange => exact call_getLine hnext hinput hread screen
  | printFile hnext hinput hread hcd hprint => exact call_getLine hnext hinput hread screen

/-- A step is one of the input. -/
theorem step_input {e : KernelStep} (hrun : k.step d e = .ok k') (screen : Screen) :
    ∃ screen', (k.input screen).step e.input = .ok (k'.input screen') := by
  cases e with
  | interrupt status keyCode =>
    obtain ⟨keyboard, hhandler, hk⟩ := bind_eq_ok.mp hrun
    obtain ⟨screen', hhandler'⟩ := keyboardHandler_withScreen hhandler screen
    refine ⟨screen', ?_⟩
    rw [← Except.ok.inj hk]
    exact bind_of_ok hhandler' rfl
  | call file => exact ⟨screen, (called_of_call hrun).input screen⟩

end Kernel

/-! ## The shell -/

/-- Rounds of the main loop, with the two strings and the uninitialised `file` of each. -/
def rounds (d : Drive) (s : FsState) (rs : List (List UInt8 × List UInt8 × File)) : Except Fault FsState :=
  rs.foldlM (fun s r => mainRound d s r.1 r.2.1 r.2.2) s

/-- The kernel is in a round that began with the state `s` of the file system driver. -/
def Kernel.InRound (k : Kernel) (s : FsState) : Prop :=
  match k.next with
  | .clearInputBuffer => k.files = s
  | .getStr => k.files = SoreOS.prompt s
  | .getLine => k.files = SoreOS.prompt s ∧
      (strcmp k.buffer (str ['c', 'd']) = 0 ∨ strcmp k.buffer (str ['c', 'a', 't']) = 0)

/-- The kernel has been through whole rounds from the state `s₀` on, and is in another one. -/
def Kernel.Rounds (d : Drive) (s₀ : FsState) (k : Kernel) : Prop :=
  ∃ rs s, rounds d s₀ rs = .ok s ∧ k.InRound s

namespace Kernel

variable {d : Drive} {k k' : Kernel} {s₀ s : FsState}

/-- A round has come to its end. -/
theorem rounds_succ {rs : List (List UInt8 × List UInt8 × File)} (hrounds : rounds d s₀ rs = .ok s)
    {buffer line : List UInt8} {file : File} {t : FsState} (hround : mainRound d s buffer line file = .ok t)
    (hnext : k'.next = .clearInputBuffer) (hfiles : k'.files = t) : Rounds d s₀ k' := by
  refine ⟨rs ++ [(buffer, line, file)], t, ?_, ?_⟩
  · rw [rounds, List.foldlM_append]
    refine bind_of_ok hrounds ?_
    rw [List.foldlM_cons]
    exact bind_of_ok hround rfl
  · rw [InRound, hnext]
    exact hfiles

/-- A part of the main loop stays in its round, or ends it. -/
theorem Called.rounds {file : File} (h : k.Called d file k') (hk : Rounds d s₀ k) : Rounds d s₀ k' := by
  obtain ⟨rs, s, hrounds, hin⟩ := hk
  have hstay := hin
  rw [InRound] at hin
  -- a round without `cd` or `cat`
  have hround : ∀ (buffer : List UInt8), k.next = .getStr → ¬ ReadsLine buffer → mainRound d s buffer [] file =
      if strcmp buffer (str ['l', 's']) = 0 then listFiles d k.files else .ok k.files := by
    intro buffer hnext hcommand
    obtain ⟨hcd, hcat⟩ := not_or.mp hcommand
    rw [hnext] at hin
    rw [mainRound, if_neg hcd, if_neg hcat, show k.files = SoreOS.prompt s from hin]
    rfl
  cases h with
  | prompt hnext =>
    rw [hnext] at hin
    refine ⟨rs, s, hrounds, ?_⟩
    rw [InRound, ← show k.files = s from hin]
    rfl
  | waits hnext hempty => exact ⟨rs, s, hrounds, hstay⟩
  | command hnext hinput hread hcommand =>
    rw [hnext] at hin
    exact ⟨rs, s, hrounds, hin, hcommand⟩
  | list hnext hinput hread hcommand hls hlist =>
    exact rounds_succ hrounds ((hround _ hnext hcommand).trans ((if_pos hls).trans hlist)) rfl rfl
  | clear hnext hinput hread hcommand hls =>
    exact rounds_succ hrounds ((hround _ hnext hcommand).trans (if_neg hls)) rfl rfl
  | unknown hnext hinput hread hcommand hls =>
    exact rounds_succ hrounds ((hround _ hnext hcommand).trans (if_neg hls)) rfl rfl
  | @changeDir line io files hnext hinput hread hcd hchange =>
    rw [hnext] at hin
    have hmain : mainRound d s k.buffer line file = changeDirCMD d k.files line file := by
      rw [mainRound, if_pos hcd, hin.1]
      rfl
    exact rounds_succ hrounds (hmain.trans hchange) rfl rfl
  | @printFile line io files hnext hinput hread hcd hprint =>
    rw [hnext] at hin
    have hmain : mainRound d s k.buffer line file = printFileCMD d k.files line file := by
      rw [mainRound, if_neg hcd, if_pos (hin.2.resolve_left hcd), hin.1]
      rfl
    exact rounds_succ hrounds (hmain.trans hprint) rfl rfl

/-- A step stays in its round, or ends it. -/
theorem step_rounds {e : KernelStep} (h : Rounds d s₀ k) (hrun : k.step d e = .ok k') : Rounds d s₀ k' := by
  cases e with
  | interrupt status keyCode =>
    obtain ⟨keyboard, -, hk⟩ := bind_eq_ok.mp hrun
    obtain rfl := Except.ok.inj hk
    exact h
  | call file => exact (called_of_call hrun).rounds h

end Kernel

/-! ## Reachable states of the drivers -/

namespace Reachable

variable {d : Drive} {s t : FsState}

theorem printStrZ (h : Reachable d s) (buffer : List UInt8) : Reachable d (printStrZ s buffer) :=
  h.step (.printStrZ buffer) rfl

theorem prompt (h : Reachable d s) : Reachable d (prompt s) := (h.printStrZ _).printStrZ _

theorem findFile (h : Reachable d s) {name : List UInt8} {file file' : File} {res : Int}
    (hrun : findFile d s name file = .ok (res, file', t)) : Reachable d t :=
  h.step (.findFile name file) (map_eq_ok.mpr ⟨_, hrun, rfl⟩)

theorem changeDirCMD (h : Reachable d s) {name : List UInt8} {file : File} (hrun : changeDirCMD d s name file = .ok t) :
    Reachable d t := by
  obtain ⟨⟨res, file', s₁⟩, hfind, hrun⟩ := bind_eq_ok.mp hrun
  have h₁ := h.findFile hfind
  dsimp only at hrun
  split at hrun
  · split at hrun
    · obtain ⟨⟨ok, s₂⟩, hopen, hrun⟩ := bind_eq_ok.mp hrun
      have h₂ : Reachable d s₂ := h₁.step (.openDirectory file') (map_eq_ok.mpr ⟨_, hopen, rfl⟩)
      dsimp only at hrun
      split at hrun
      · split at hrun
        · exact h₂.step .delPath hrun
        split at hrun
        · exact h₂.step (.addPath name) hrun
        · exact Except.ok.inj hrun ▸ h₂
      · exact Except.ok.inj hrun ▸ h₂
    · exact Except.ok.inj hrun ▸ (h₁.printStrZ _).printStrZ _
  · exact Except.ok.inj hrun ▸ (h₁.printStrZ _).printStrZ _

theorem printFileCMD (h : Reachable d s) {name : List UInt8} {file : File} (hrun : printFileCMD d s name file = .ok t) :
    Reachable d t := by
  obtain ⟨⟨res, file', s₁⟩, hfind, hrun⟩ := bind_eq_ok.mp hrun
  have h₁ := h.findFile hfind
  dsimp only at hrun
  split at hrun
  · split at hrun
    · obtain ⟨s₂, hprint, hrun⟩ := bind_eq_ok.mp hrun
      exact Except.ok.inj hrun ▸ (h₁.step (.printFile file') hprint).printStrZ _
    · exact Except.ok.inj hrun ▸ (h₁.printStrZ _).printStrZ _
  · exact Except.ok.inj hrun ▸ (h₁.printStrZ _).printStrZ _

theorem mainRound (h : Reachable d s) {buffer line : List UInt8} {file : File}
    (hrun : mainRound d s buffer line file = .ok t) : Reachable d t := by
  rw [SoreOS.mainRound] at hrun
  split at hrun
  · exact h.prompt.changeDirCMD hrun
  split at hrun
  · exact h.prompt.printFileCMD hrun
  split at hrun
  · exact h.prompt.step .listFiles hrun
  · exact Except.ok.inj hrun ▸ h.prompt

theorem rounds {rs : List (List UInt8 × List UInt8 × File)} (h : Reachable d s) (hrun : rounds d s rs = .ok t) :
    Reachable d t := by
  induction rs generalizing s with
  | nil => exact Except.ok.inj hrun ▸ h
  | cons r rs ih =>
    rw [SoreOS.rounds, List.foldlM_cons] at hrun
    obtain ⟨s₁, hround, hrest⟩ := bind_eq_ok.mp hrun
    exact ih (h.mainRound hround) hrest

end Reachable

/-- A state of the keyboard and the screen that their drivers come to. -/
def Keyboard.Reached (k : Keyboard) : Prop := ∃ evicted, Keyboard.Reachable k evicted

theorem Keyboard.Reached.putText {k : Keyboard} (h : k.Reached) (text : List UInt8) :
    Keyboard.Reached { k with screen := text.foldl Screen.putChar k.screen } := by
  induction text generalizing k with
  | nil => exact h
  | cons ch text ih =>
    obtain ⟨evicted, hreach⟩ := h
    exact @ih { k with screen := k.screen.putChar ch } ⟨_, hreach.output (.putChar ch)⟩

/-- A reader changes the queue only. -/
theorem readToken_frame {io io' : IoBuffers} {stop : UInt8 → Bool} {size : Int} {buffer : List UInt8}
    (h : io.readToken stop size = .ok (buffer, io')) :
    ∃ i m, io' = { io with inputIndex := i, inputBuffer := m } := by
  obtain ⟨token, -, h⟩ := bind_eq_ok.mp h
  obtain ⟨io'', htrim, h⟩ := bind_eq_ok.mp h
  obtain ⟨count, -, htrim⟩ := bind_eq_ok.mp htrim
  obtain ⟨m, -, htrim⟩ := bind_eq_ok.mp htrim
  cases htrim
  cases h
  exact ⟨_, _, rfl⟩

theorem Keyboard.Reached.read {k : Keyboard} (h : k.Reached) {io' : IoBuffers} {stop : UInt8 → Bool} {size : Int}
    {buffer : List UInt8} (hread : k.io.readToken stop size = .ok (buffer, io')) :
    Keyboard.Reached { k with io := io' } := by
  obtain ⟨evicted, hreach⟩ := h
  obtain ⟨i, m, rfl⟩ := readToken_frame hread
  exact ⟨evicted, hreach.input i m⟩

namespace Kernel

variable {d : Drive} {k k' : Kernel}

theorem reached_setFontColor (h : k.keyboard.Reached) (color : UInt8) : (k.setFontColor color).keyboard.Reached := by
  obtain ⟨evicted, hreach⟩ := h
  exact ⟨_, hreach.output (.setFontColor color)⟩

theorem reached_print (h : k.keyboard.Reached) (files : FsState) : (k.print files).keyboard.Reached := h.putText _

theorem reached_prompt (h : k.keyboard.Reached) : k.prompt.keyboard.Reached :=
  reached_print (reached_setFontColor (reached_print (reached_setFontColor h _) _) _) _

/-- A part of the main loop prints, reads its input or clears. -/
theorem Called.reached {file : File} (h : k.Called d file k') (hk : k.keyboard.Reached) : k'.keyboard.Reached := by
  cases h with
  | prompt hnext =>
    obtain ⟨evicted, hreach⟩ := reached_prompt hk
    exact ⟨evicted, hreach.input 0 _⟩
  | waits hnext hempty => exact hk
  | command hnext hinput hread hcommand => exact hk.read hread
  | list hnext hinput hread hcommand hls hlist => exact (hk.read hread).putText _
  | @clear buffer io hnext hinput hread hcommand hls => exact ⟨false, .clear { k.keyboard with io := io }⟩
  | unknown hnext hinput hread hcommand hls => exact hk.read hread
  | changeDir hnext hinput hread hcd hchange => exact (hk.read hread).putText _
  | printFile hnext hinput hread hcd hprint => exact (hk.read hread).putText _

theorem step_reached {e : KernelStep} (h : k.keyboard.Reached) (hrun : k.step d e = .ok k') : k'.keyboard.Reached := by
  cases e with
  | interrupt status keyCode =>
    obtain ⟨keyboard, hhandler, hk⟩ := bind_eq_ok.mp hrun
    obtain rfl := Except.ok.inj hk
    obtain ⟨evicted, hreach⟩ := h
    exact ⟨_, hreach.key (status, keyCode) hhandler⟩
  | call file => exact (called_of_call hrun).reached h

end Kernel

/-! ## Runs -/

/-- What every run of the kernel keeps, from the state `s₀` of the file system driver on. -/
structure KernelInv (d : Drive) (s₀ : FsState) (k : Kernel) : Prop where
  keyboard : k.keyboard.Reached
  rounds : k.Rounds d s₀

theorem KernelInv.step {d : Drive} {s₀ : FsState} {k k' : Kernel} {e : KernelStep} (h : KernelInv d s₀ k)
    (hrun : k.step d e = .ok k') : KernelInv d s₀ k' :=
  ⟨Kernel.step_reached h.keyboard hrun, Kernel.step_rounds h.rounds hrun⟩

/-- The file system driver is in a state that its operations come to. -/
theorem KernelInv.files {d : Drive} {s₀ : FsState} {k : Kernel} (h : KernelInv d s₀ k) (hs : SoreOS.Reachable d s₀) :
    SoreOS.Reachable d k.files := by
  obtain ⟨rs, s, hrounds, hin⟩ := h.rounds
  have hreach := hs.rounds hrounds
  rw [Kernel.InRound] at hin
  cases hnext : k.next with
  | clearInputBuffer =>
    rw [hnext] at hin
    exact hin ▸ hreach
  | getStr =>
    rw [hnext] at hin
    exact hin ▸ hreach.prompt
  | getLine =>
    rw [hnext] at hin
    exact hin.1 ▸ hreach.prompt

/-- From the start of `main` on, for any interrupts and parts of the main loop in any order that run without a fault:
    the keyboard and the screen are in a reachable state of their drivers, the buffers come from the same steps of
    the input alone, and the file system driver has gone through whole rounds of the shell and the part of one that
    the main loop is in. So it is in a reachable state, too. -/
theorem kernel_run {d : Drive} {screen : Screen} {k₀ k : Kernel} (hboot : Kernel.boot d screen = some (.ok k₀))
    {es : List KernelStep} (hrun : es.foldlM (Kernel.step d) k₀ = .ok k) :
    k.keyboard.Reached ∧ k.Rounds d k₀.files ∧ SoreOS.Reachable d k.files ∧
      ∃ screen', (es.map KernelStep.input).foldlM InputState.step (.boot screen) = .ok (k.input screen') := by
  obtain ⟨loaded, hload, hk⟩ := Option.map_eq_some_iff.mp hboot
  obtain ⟨⟨ok, files⟩, rfl, hk⟩ := bind_eq_ok.mp hk
  obtain rfl := Except.ok.inj hk
  have hstart : KernelInv d files
      { keyboard := { screen := (files.out.foldl Screen.putChar screen).clearScreen }, files := files } :=
    ⟨⟨false, .clear { screen := files.out.foldl Screen.putChar screen }⟩, [], files, rfl, rfl⟩
  -- the step of the input is projected, the invariant goes with it
  have hstep : ∀ (k : Kernel) (s : InputState) e k', (∃ screen, s = k.input screen) ∧ KernelInv d files k →
      Kernel.step d k e = .ok k' → ∃ s', s.step e.input = .ok s' ∧
        ((∃ screen, s' = k'.input screen) ∧ KernelInv d files k') := by
    rintro k _ e k' ⟨⟨screen, rfl⟩, hinv⟩ he
    obtain ⟨screen', hinput⟩ := Kernel.step_input he screen
    exact ⟨_, hinput, ⟨screen', rfl⟩, hinv.step he⟩
  obtain ⟨_, hinput, ⟨screen', rfl⟩, hinv⟩ := run_projects hstep ⟨⟨screen, rfl⟩, hstart⟩ hrun
  exact ⟨hinv.keyboard, hinv.rounds, hinv.files (.load hload), screen', hinput⟩

/-- A letter is typed behind the prompt. -/
theorem kernel_run_typed : ∃ k₀ k, Kernel.boot (healthyDrive subDisk) { vidmem := fun _ => 0 } = some (.ok k₀) ∧
    [.call {}, .interrupt 1 0x26].foldlM (Kernel.step (healthyDrive subDisk)) k₀ = .ok k ∧
    k.keyboard.Reached ∧ k.Rounds (healthyDrive subDisk) k₀.files := by
  have hhdr : volumeHeader (healthyDrive subDisk).disk = defaultHeader := volumeHeader_subDisk
  obtain ⟨s, hload, -⟩ := @loadFileSystem_good (healthyDrive subDisk) rfl (healthyDrive_good _)
    (hhdr ▸ defaultHeader_layout) [] (hhdr ▸ subDisk_root) (by decide)
  have hboot : Kernel.boot (healthyDrive subDisk) { vidmem := fun _ => 0 } = some (.ok {
      keyboard := { screen := (s.out.foldl Screen.putChar { vidmem := fun _ => 0 }).clearScreen }
      files := s }) := by
    rw [Kernel.boot, hload]
    rfl
  obtain ⟨hkeyboard, hrounds, -⟩ := @kernel_run _ _ _ _ hboot [.call {}, .interrupt 1 0x26] rfl
  exact ⟨_, _, hboot, rfl, hkeyboard, hrounds⟩

end SoreOS
