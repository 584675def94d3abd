import SoreOS.Native.CString

/-!
# Screen driver

`drivers/screen.c`: text output on the VGA text page at `VIDEO_ADDRESS`, with a
log of earlier rows in the seven pages that follow it in video memory.
-/

namespace SoreOS

open ForStd

def VIDEO_ADDRESS : Int := 0xB8000
def BACKUP_ADDRESS : Int := 0xB8FA0
def WHITE_ON_BLACK : UInt8 := 0x0F

/-- The driver's globals, the video memory, and the two cursor registers of the
    VGA controller. -/
structure Screen where
  style : UInt8 := WHITE_ON_BLACK
  /-- Current column offset, in bytes. -/
  column : Int := 0
  /-- Display row offset on the 1st page. -/
  dispRow : Int := 0
  /-- Global row offset in the backup pages. -/
  globRow : Int := 0
  /-- Which line is shown on the display page. -/
  lineShow : Int := 0
  vidmem : Bytes
  /-- Registers `0x0F` and `0x0E`. -/
  cursorLow : Int := 0
  cursorHigh : Int := 0

namespace Screen

/-- Sets the foreground color of the text. -/
def setFontColor (s : Screen) (color : UInt8) : Screen :=
  { s with style := (s.style &&& 0xF0) ||| (color &&& 0x0F) }

/-- Sends the cursor position to the VGA registers. -/
def updateCursor (s : Screen) : Screen :=
  let pos := s.dispRow * 80 + s.column.tdiv 2
  { s with cursorLow := pos % 256, cursorHigh := (pos / 256) % 256 }

/-- The erasing loop: `n` cells from address `start` get character 0 and the
    attribute `style`. -/
def eraseCells (m : Bytes) (start : Int) (style : UInt8) : Nat → Bytes
  | 0 => m
  | n + 1 => ((eraseCells m start style n).set (start + 2 * n) 0).set (start + 2 * n + 1) style

/-- Resets the counters, and clears the display page and the backup pages. -/
def clearScreen (s : Screen) : Screen :=
  let s := { s with column := 0, dispRow := 0, globRow := 0, lineShow := 0 }
  let s := updateCursor s
  { s with vidmem := eraseCells s.vidmem VIDEO_ADDRESS s.style (8 * 80 * 25) }

/-- Starts a new line. A full backup loses its oldest page. -/
def scrollLineDown (s : Screen) : Screen :=
  -- the cursor goes to the start of the next line
  let s := { s with column := 0, globRow := s.globRow + 1 }
  let s :=
    -- a full backup drops its oldest page
    if s.globRow = 175 then
      { s with
        vidmem := memcpy s.vidmem BACKUP_ADDRESS (BACKUP_ADDRESS + 4000) 18000
        globRow := s.globRow - 25
        lineShow := s.lineShow - 25 }
    else s
  if s.dispRow = 24 then
    -- shift all lines up and erase the last line of the display
    let m := memcpy s.vidmem VIDEO_ADDRESS (VIDEO_ADDRESS + 160) (24 * 160)
    { s with
      vidmem := eraseCells m (VIDEO_ADDRESS + 24 * 160) s.style 80
      lineShow := s.lineShow + 1 }
  else { s with dispRow := s.dispRow + 1 }

/-- Goes back a line. -/
def scrollLineUp (s : Screen) : Screen :=
  let s :=
    -- the display shows the last 25 lines of the backup
    if s.dispRow = 24 ∧ s.globRow ≥ 25 then
      { s with
        vidmem := memcpy s.vidmem VIDEO_ADDRESS (BACKUP_ADDRESS + (s.globRow - 25) * 160) (25 * 160)
        lineShow := s.lineShow - 1 }
    else { s with dispRow := s.dispRow - 1 }
  { s with column := 158, globRow := s.globRow - 1 }

/-- Copies the 25 backup rows from `line` on to the display page. -/
def showLine (s : Screen) (line : Int) : Screen :=
  { s with
    lineShow := line
    vidmem := memcpy s.vidmem VIDEO_ADDRESS (BACKUP_ADDRESS + line * 160) (25 * 160) }

/-- Scrolls 25 lines up in the history. -/
def scrollPageUp (s : Screen) : Screen :=
  showLine s (if s.lineShow - 25 < 0 then 0 else s.lineShow - 25)

/-- Scrolls 25 lines down in the history. -/
def scrollPageDown (s : Screen) : Screen :=
  showLine s (if s.lineShow + 25 > s.globRow - 24 then s.globRow - 24 else s.lineShow + 25)

/-- Scrolls the page back to where the user was typing. -/
def scrollPageBack (s : Screen) : Screen :=
  let line := if s.globRow - 24 < 0 then 0 else s.globRow - 24
  if s.lineShow ≠ line then showLine s line else s

/-- Writes a cell to the backup and to the display page. -/
def storeCell (s : Screen) (dispOffset globOffset : Int) (ch : UInt8) : Screen :=
  let m := (s.vidmem.set (BACKUP_ADDRESS + globOffset) ch).set (VIDEO_ADDRESS + dispOffset) ch
  { s with
    vidmem := (m.set (BACKUP_ADDRESS + globOffset + 1) s.style).set
      (VIDEO_ADDRESS + dispOffset + 1) s.style }

/-- Puts a character on the screen. -/
def putChar (s : Screen) (ch : UInt8) : Screen :=
  let dispOffset := s.dispRow * 160 + s.column
  let globOffset := s.globRow * 160 + s.column
  let s := scrollPageBack s
  if ch = NEWLINE then scrollLineDown s
  else
    let s := storeCell s dispOffset globOffset ch
    let s := { s with column := s.column + 2 }
    -- at the end of the line, scroll down
    let s := if s.column = 160 then scrollLineDown s else s
    updateCursor s

/-- Deletes a character from the screen. -/
def delChar (s : Screen) : Screen :=
  let dispOffset := s.dispRow * 160 + s.column - 2
  let globOffset := s.globRow * 160 + s.column - 2
  let s := scrollPageBack s
  if dispOffset ≥ 0 then
    let s := storeCell s dispOffset globOffset 0
    let s := { s with column := s.column - 2 }
    -- at the beginning of the line, scroll up
    let s := if s.column < 0 then scrollLineUp s else s
    updateCursor s
  else s

end Screen

end SoreOS
