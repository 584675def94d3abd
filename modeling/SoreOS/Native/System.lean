import SoreOS.Native.Kernel

/-!
# The kernel as a whole

`main` of `kernel/kernel.c` with the drivers it works on: the main loop goes from one wait for input to the next, and
the keyboard interrupts it there. What the file system driver prints goes to the screen of the keyboard driver.
-/

namespace SoreOS

open ForStd

def COLOR_LIGHT_GREEN : UInt8 := 10
def COLOR_WHITE : UInt8 := 15

/-- The drivers, the call that the main loop makes next for its input, and the command in its `buffer`. -/
structure Kernel where
  keyboard : Keyboard
  files : FsState
  next : InputCall := .clearInputBuffer
  buffer : List UInt8 := []

/-- An interrupt, with the bytes of the status and data ports, or the next part of the main loop, with the
    uninitialised `file` of a command. -/
inductive KernelStep where
  | interrupt (status keyCode : UInt8)
  | call (file : File)

namespace Kernel

/-- The file system driver was called: what it printed is on the screen. -/
def print (k : Kernel) (files : FsState) : Kernel :=
  { k with
    files := files
    keyboard := { k.keyboard with
      screen := (files.out.drop k.files.out.length).foldl Screen.putChar k.keyboard.screen } }

def setFontColor (k : Kernel) (color : UInt8) : Kernel :=
  { k with keyboard := { k.keyboard with screen := k.keyboard.screen.setFontColor color } }

/-- Prints working directory and `$`. -/
def prompt (k : Kernel) : Kernel :=
  let k := k.setFontColor COLOR_LIGHT_GREEN
  let k := k.print (printStrZ k.files (getWorkingDirectory k.files))
  let k := k.setFontColor COLOR_WHITE
  k.print (printStrZ k.files (str ['$', ' ']))

/-- The main loop up to its next call for input. -/
def call (d : Drive) (k : Kernel) (file : File) : Except Fault Kernel :=
  match k.next with
  | .clearInputBuffer =>
    let k := k.prompt
    return { k with keyboard := { k.keyboard with io := k.keyboard.io.clearInputBuffer }, next := .getStr }
  | .getStr =>
    if k.keyboard.io.inputIndex = 0 then return k
    else do
      -- gets a command from the user
      let (buffer, io) ← k.keyboard.io.getStr 256
      let k := { k with keyboard := { k.keyboard with io := io }, buffer := buffer, next := .clearInputBuffer }
      if strcmp buffer (str ['c', 'd']) = 0 then return { k with next := .getLine }
      else if strcmp buffer (str ['c', 'a', 't']) = 0 then return { k with next := .getLine }
      else if strcmp buffer (str ['l', 's']) = 0 then
        let files ← listFiles d k.files
        return k.print files
      else if strcmp buffer (str ['c', 'l', 'e', 'a', 'r']) = 0 then
        return { k with keyboard := { k.keyboard with screen := k.keyboard.screen.clearScreen } }
      else return k
  | .getLine =>
    if k.keyboard.io.inputIndex = 0 then return k
    else do
      let (line, io) ← k.keyboard.io.getLine 256 NEWLINE
      let k := { k with keyboard := { k.keyboard with io := io }, next := .clearInputBuffer }
      if strcmp k.buffer (str ['c', 'd']) = 0 then
        let files ← changeDirCMD d k.files line file
        return k.print files
      else
        let files ← printFileCMD d k.files line file
        return k.print files

def step (d : Drive) (k : Kernel) : KernelStep → Except Fault Kernel
  | .interrupt status keyCode => do
    let keyboard ← k.keyboard.keyboardHandler status keyCode
    return { k with keyboard := keyboard }
  | .call file => k.call d file

/-- `main` up to the loop, whether the file system is loaded or not. `none` means that `identify` does not return. -/
def boot (d : Drive) (screen : Screen) : Option (Except Fault Kernel) :=
  (loadFileSystem d .boot).map fun loaded => do
    let (_, files) ← loaded
    return { keyboard := { screen := (files.out.foldl Screen.putChar screen).clearScreen }, files := files }

end Kernel

end SoreOS
