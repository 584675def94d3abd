import SoreOS.Native.IoBuffers
import SoreOS.Native.Screen

/-!
# Keyboard driver

`drivers/keyboard.c`: the interrupt handler, which edits the pending line,
echoes it on the screen and commits it to the input queue.
-/

namespace SoreOS

open ForStd

def KEY_DOWN : UInt8 := 0x00
def KEY_BACKSPACE : UInt8 := 0x0E
def KEY_ENTER : UInt8 := 0x1C
def KEY_LSHIFT : UInt8 := 0x2A
def KEY_RSHIFT : UInt8 := 0x36
def KEY_CAPSLOCK : UInt8 := 0x3A
def KEY_PAGEUP : UInt8 := 0x49
def KEY_PAGEDOWN : UInt8 := 0x51

/-- The modifier flags, and the state of the drivers the handler works on. -/
structure Keyboard where
  lshift : Bool := false
  rshift : Bool := false
  capsLock : Bool := false
  io : IoBuffers := {}
  screen : Screen

namespace Keyboard

/-- PS/2 keyboard character set for normal key presses. -/
def normCharset : List Char := [
  '\x00', '\x00', '1', '2', '3', '4', '5', '6', '7', '8',
  '9', '0', '-', '=', '\x00', '\x00', 'q', 'w', 'e', 'r',
  't', 'y', 'u', 'i', 'o', 'p', '[', ']', '\x00', '\x00',
  'a', 's', 'd', 'f', 'g', 'h', 'j', 'k', 'l', ';',
  '\x27', '\x60', '\x00', '\\', 'z', 'x', 'c', 'v', 'b', 'n',
  'm', ',', '.', '/', '\x00', '*', '\x00', ' ', '\x00', '\x00',
  '\x00', '\x00', '\x00', '\x00', '\x00', '\x00', '\x00', '\x00', '\x00', '\x00',
  '\x00', '7', '8', '\x00', '-', '4', '5', '6', '+', '1',
  '2', '\x00', '0', '.', '\x00', '\x00', '\x00', '\x00', '\x00', '\x00']

/-- PS/2 keyboard character set for shift key presses. -/
def shiftCharset : List Char := [
  '\x00', '\x00', '!', '@', '#', '$', '%', '^', '&', '*',
  '(', ')', '_', '+', '\x00', '\x00', 'Q', 'W', 'E', 'R',
  'T', 'Y', 'U', 'I', 'O', 'P', '\x7b', '\x7d', '\x00', '\x00',
  'A', 'S', 'D', 'F', 'G', 'H', 'J', 'K', 'L', ':',
  '\x22', '~', '\x00', '|', 'Z', 'X', 'C', 'V', 'B', 'N',
  'M', '<', '>', '?', '\x00', '*', '\x00', ' ', '\x00', '\x00',
  '\x00', '\x00', '\x00', '\x00', '\x00', '\x00', '\x00', '\x00', '\x00', '\x00',
  '\x00', '7', '8', '\x00', '-', '4', '5', '6', '+', '1',
  '2', '\x00', '0', '.', '\x00', '\x00', '\x00', '\x00', '\x00', '\x00']

/-- A character table as array contents. -/
def table (charset : List Char) : Bytes :=
  fun i => (charset.getD i.toNat '\x00').toNat.toUInt8

/-- Returns a keyboard character based on the key code and the modifiers. -/
def keyChar (k : Keyboard) (code : UInt8) : Except Fault UInt8 :=
  if k.lshift || k.rshift || k.capsLock then
    load .shiftCharset (table shiftCharset) code.toNat
  else load .normCharset (table normCharset) code.toNat

/-- The `KEY_ENTER` case: commits the pending line and a newline. -/
def commitLine (k : Keyboard) : Except Fault Keyboard := do
  let m ← copyArray .inputBuffer k.io.inputBuffer k.io.inputIndex .tempBuffer k.io.tempBuffer 0
    k.io.tempIndex.toNat
  let inputIndex := k.io.inputIndex + k.io.tempIndex
  let m ← store .inputBuffer m inputIndex NEWLINE
  return { k with
    io := { k.io with inputBuffer := m, inputIndex := inputIndex + 1, tempIndex := 0 }
    screen := k.screen.putChar NEWLINE }

/-- The `KEY_BACKSPACE` case: deletes the last pending character, if there is one. -/
def deletePending (k : Keyboard) : Except Fault Keyboard :=
  if k.io.tempIndex > 0 then do
    let tempIndex := k.io.tempIndex - 1
    let m ← store .tempBuffer k.io.tempBuffer tempIndex 0
    return { k with
      io := { k.io with tempBuffer := m, tempIndex := tempIndex }
      screen := k.screen.delChar }
  else return k

/-- Handles system key presses with functionalities. -/
def sysKey (k : Keyboard) (code state : UInt8) : Except Fault Keyboard :=
  if code = KEY_LSHIFT then return { k with lshift := state = KEY_DOWN }
  else if code = KEY_RSHIFT then return { k with rshift := state = KEY_DOWN }
  else if code = KEY_CAPSLOCK then
    return if state = KEY_DOWN then { k with capsLock := !k.capsLock } else k
  else if code = KEY_PAGEUP then
    return if state = KEY_DOWN then { k with screen := k.screen.scrollPageUp } else k
  else if code = KEY_PAGEDOWN then
    return if state = KEY_DOWN then { k with screen := k.screen.scrollPageDown } else k
  else if code = KEY_BACKSPACE then
    if state = KEY_DOWN then deletePending k else return k
  else if code = KEY_ENTER then
    if state = KEY_DOWN then commitLine k else return k
  else return k

/-- The `else` branch for a printable key: echoes it and appends it to the pending line. -/
def typeChar (k : Keyboard) (character : UInt8) : Except Fault Keyboard := do
  let screen := k.screen.putChar character
  let m ← store .tempBuffer k.io.tempBuffer k.io.tempIndex character
  return { k with
    io := { k.io with tempBuffer := m, tempIndex := k.io.tempIndex + 1 }
    screen := screen }

/-- The interrupt handler, with the bytes it reads from the status and data ports. -/
def keyboardHandler (k : Keyboard) (status keyCode : UInt8) : Except Fault Keyboard :=
  if status &&& 0x01 ≠ 0 then do
    let character ← keyChar k (keyCode &&& 0x7F)
    if character = 0 then sysKey k (keyCode &&& 0x7F) (keyCode &&& 0x80)
    else if keyCode &&& 0x80 = 0 then typeChar k character
    else return k
  else return k

end Keyboard

end SoreOS
