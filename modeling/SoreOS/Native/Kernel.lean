import SoreOS.Native.Filesys
import SoreOS.Native.Keyboard

/-!
# Kernel shell

The commands of `kernel/kernel.c`. A round of the main loop is modelled from the
two strings it reads from the input, the command and the rest of its line; the
local `file` of a command is uninitialised and comes from outside.
-/

namespace SoreOS

open ForStd

/-- The characters of a string constant. -/
def str (s : List Char) : List UInt8 := s.map (·.toNat.toUInt8)

/-- Prints a string to the screen unbuffered. -/
def printStrZ (s : FsState) (buffer : List UInt8) : FsState := { s with out := s.out ++ buffer }

/-- `": No such file or directory\n"` -/
def noSuchFile : List UInt8 :=
  str [':', ' ', 'N', 'o', ' ', 's', 'u', 'c', 'h', ' ', 'f', 'i', 'l', 'e', ' ', 'o', 'r', ' ', 'd',
    'i', 'r', 'e', 'c', 't', 'o', 'r', 'y', '\n']

/-- `": Not a directory\n"` -/
def notADirectory : List UInt8 :=
  str [':', ' ', 'N', 'o', 't', ' ', 'a', ' ', 'd', 'i', 'r', 'e', 'c', 't', 'o', 'r', 'y', '\n']

/-- `": Is a directory\n"` -/
def isADirectory : List UInt8 :=
  str [':', ' ', 'I', 's', ' ', 'a', ' ', 'd', 'i', 'r', 'e', 'c', 't', 'o', 'r', 'y', '\n']

/-- Changes the current directory and adjusts the system path. -/
def changeDirCMD (d : Drive) (s : FsState) (directoryName : List UInt8) (file : File) :
    Except Fault FsState := do
  let (res, file, s) ← findFile d s directoryName file
  if res = 0 then
    if file.type = FTYPE_DIRECTORY then
      let (ok, s) ← openDirectory d s file
      if ok then
        if strcmp directoryName [DOT, DOT] = 0 then delPath s
        else if strcmp directoryName [DOT] ≠ 0 then addPath s directoryName
        else return s
      else return s
    else return printStrZ (printStrZ s directoryName) notADirectory
  else return printStrZ (printStrZ s directoryName) noSuchFile

/-- Prints a file of the current directory. -/
def printFileCMD (d : Drive) (s : FsState) (fileName : List UInt8) (file : File) :
    Except Fault FsState := do
  let (res, file, s) ← findFile d s fileName file
  if res = 0 then
    if file.type = FTYPE_FILE then
      let s ← printFile d s file
      return printStrZ s [NEWLINE]
    else return printStrZ (printStrZ s fileName) isADirectory
  else return printStrZ (printStrZ s fileName) noSuchFile

/-- A round of the main loop. `clear` empties the screen and nothing else. -/
def mainRound (d : Drive) (s : FsState) (buffer line : List UInt8) (file : File) :
    Except Fault FsState := do
  let s := printStrZ (printStrZ s (getWorkingDirectory s)) (str ['$', ' '])
  if strcmp buffer (str ['c', 'd']) = 0 then changeDirCMD d s line file
  else if strcmp buffer (str ['c', 'a', 't']) = 0 then printFileCMD d s line file
  else if strcmp buffer (str ['l', 's']) = 0 then listFiles d s
  else return s

/-! ## Input

The main loop reads its input by three calls, between which the keyboard interrupts it. -/

/-- The call that the main loop makes next for its input: a round clears the buffer and
    reads a command, and two commands read the rest of the line. -/
inductive InputCall where
  | clearInputBuffer
  | getStr
  | getLine
  deriving DecidableEq, Repr

/-- The keyboard driver, and where the main loop is. -/
structure InputState where
  keyboard : Keyboard
  next : InputCall := .clearInputBuffer

/-- An interrupt, with the bytes of the status and data ports, or the next call of the main loop. -/
inductive InputStep where
  | interrupt (status keyCode : UInt8)
  | call

/-- The next call, which waits for input if it reads some: until then nothing changes. -/
def InputState.call (s : InputState) : Except Fault InputState :=
  match s.next with
  | .clearInputBuffer =>
    return ⟨{ s.keyboard with io := s.keyboard.io.clearInputBuffer }, .getStr⟩
  | .getStr =>
    if s.keyboard.io.inputIndex = 0 then return s
    else do
      let (buffer, io) ← s.keyboard.io.getStr 256
      let readsLine := strcmp buffer (str ['c', 'd']) = 0 ∨ strcmp buffer (str ['c', 'a', 't']) = 0
      return ⟨{ s.keyboard with io := io }, if readsLine then .getLine else .clearInputBuffer⟩
  | .getLine =>
    if s.keyboard.io.inputIndex = 0 then return s
    else do
      let (_, io) ← s.keyboard.io.getLine 256 NEWLINE
      return ⟨{ s.keyboard with io := io }, .clearInputBuffer⟩

def InputState.step (s : InputState) : InputStep → Except Fault InputState
  | .interrupt status keyCode => do
    let k ← s.keyboard.keyboardHandler status keyCode
    return { s with keyboard := k }
  | .call => s.call

/-- The start of the kernel. -/
def InputState.boot (screen : Screen) : InputState := ⟨{ screen := screen }, .clearInputBuffer⟩

end SoreOS
