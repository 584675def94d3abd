import SoreOS.Native.CString

/-!
# Input buffers

`drivers/iobuffers.c`: the line being typed and the queue of committed input,
with the functions that read from the queue. A busy wait ends when the keyboard
interrupt makes `inputIndex` nonzero; a read is modelled from that moment on.
The flag `reading` and the output buffer are never read and are left out.
-/

namespace SoreOS

open ForStd

/-- The globals of `iobuffers.c`. -/
structure IoBuffers where
  tempIndex : Int := 0
  tempBuffer : Bytes := fun _ => 0
  inputIndex : Int := 0
  inputBuffer : Bytes := fun _ => 0

namespace IoBuffers

/-- A space or a newline. -/
def isWhite (b : UInt8) : Bool := b = SPACE || b = NEWLINE

/-- `while(inputBuffer[count] == ' ' || inputBuffer[count] == '\n') count++`.
    The index faults at the end of the array, so the rounds never run out. -/
def skipWhite (inputBuffer : Bytes) : Nat → Int → Except Fault Int
  | 0, count => .error ⟨.inputBuffer, count⟩
  | rounds + 1, count => do
    let b ← load .inputBuffer inputBuffer count
    if isWhite b then skipWhite inputBuffer rounds (count + 1) else return count

/-- Removes some characters and white spaces from the input buffer. -/
def trimInput (io : IoBuffers) (count : Int) : Except Fault IoBuffers := do
  let count ← skipWhite io.inputBuffer 2049 count
  let m ← moveArray .inputBuffer io.inputBuffer 0 count (io.inputIndex - count).toNat
  return { io with inputBuffer := m, inputIndex := io.inputIndex - count }

/-- The copying loop of the two readers, from `idx` on: the bytes before the
    first stopping byte, and at most `size - 1` of them. The last comparison of
    the loop reads `inputBuffer[idx]` before it looks at `size`. -/
def copyToken (stop : UInt8 → Bool) (size : Int) (inputBuffer : Bytes) :
    Nat → Int → Except Fault (List UInt8)
  | 0, idx => .error ⟨.inputBuffer, idx⟩
  | rounds + 1, idx => do
    let b ← load .inputBuffer inputBuffer idx
    if !stop b && decide (idx < size - 1) then
      let rest ← copyToken stop size inputBuffer rounds (idx + 1)
      return b :: rest
    else return []

/-- What the two readers have in common: copy a token, then trim what was copied. -/
def readToken (io : IoBuffers) (stop : UInt8 → Bool) (size : Int) :
    Except Fault (List UInt8 × IoBuffers) := do
  let token ← copyToken stop size io.inputBuffer 2049 0
  let io ← trimInput io token.length
  return (token, io)

/-- Extracts characters till the delimiter or the end of the buffer. -/
def getLine (io : IoBuffers) (size : Int) (delim : UInt8) : Except Fault (List UInt8 × IoBuffers) :=
  readToken io (· = delim) size

/-- Extracts characters till a space, a newline or the end of the buffer. -/
def getStr (io : IoBuffers) (size : Int) : Except Fault (List UInt8 × IoBuffers) :=
  readToken io isWhite size

/-- Clears the input buffer. -/
def clearInputBuffer (io : IoBuffers) : IoBuffers := { io with inputIndex := 0 }

end IoBuffers

end SoreOS
