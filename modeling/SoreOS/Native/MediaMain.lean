import SoreOS.Native.MediaUtility

/-!
# Media utility: the program

`main` of `Source.cpp`, with `safetyCheck` and `readPhysicalDrive`. What the user enters and what `rand` returns
come from outside.
-/

namespace SoreOS.MediaUtility

open ForStd

/-- `SetFilePointer` to a byte offset, then `ReadFile`. -/
def readFile (w : Windows) (m : Machine) (offset : Int) (buffer : Bytes) (size : Nat) : Bool × Bytes × Machine :=
  if w.succeeds m.calls then
    (true, memcpyObj buffer 0 m.drive offset size, { m with calls := m.calls + 1 })
  else (false, buffer, { m with calls := m.calls + 1 })

/-- Reads data from a physical drive from a specific LBA sector. -/
def readPhysicalDrive (w : Windows) (m : Machine) (LBA : Int) (buffer : Bytes) (size : Nat) : Int × Bytes × Machine :=
  let (hdevice, m) := createFile w m
  if hdevice = none then (-1, buffer, m)
  else
    let (res, buffer, m) := readFile w m (LBA * 512) buffer size
    if res = false then (-1, buffer, closeHandle m hdevice) else (0, buffer, closeHandle m hdevice)

/-- The loop of `safetyCheck` over the characters that are left. -/
def sameFrom (sector : Bytes) (j : Int) : List UInt8 → Bool
  | [] => true
  | c :: str => if c ≠ sector j then false else sameFrom sector (j + 1) str

/-- Checks if the drive is safe to be formatted by matching a signature.
    Returns -1 on fail, -2 on unsafe, 0 on safe device. -/
def safetyCheck (w : Windows) (m : Machine) (index : Int) (str : List UInt8) : Int × Machine :=
  let (res, sector, m) := readPhysicalDrive w m 0 w.stack 512
  if res ≠ 0 then (-1, m)
  else if sameFrom sector index str then (0, m)
  else (-2, m)

/-- The characters of `"Sore-OS"`. -/
def signature : List UInt8 := [83, 111, 114, 101, 45, 79, 83]

def words : List String :=
  ["original", "crystal", "power", "difference", "reception", "intensify", "allowance", "particle", "meeting",
    "module", "compact", "translate"]

/-- What comes from the console, and from `rand`. -/
structure Console where
  ID : Int
  rand : Nat
  input : String

/-- The last line on the console. -/
inductive Report where
  /-- `"~~~ Build Successful ~~~"` -/
  | successful
  /-- `"~~~ Build Unsuccessful ~~~"` -/
  | unsuccessful
  /-- `"Failed to select Physical Drive!"` -/
  | failedToSelect
  deriving DecidableEq, Repr

def main (w : Windows) (m : Machine) (user : Console) : Report × Machine :=
  let (check, m) := safetyCheck w m 0x1B6 signature
  -- a drive without the signature needs the word
  let check := if check = -2 then (if words.getD (user.rand % 12) "" = user.input then 0 else -1) else check
  if check = 0 then
    let (res, m) := build w m user.ID
    (if res = 0 then .successful else .unsuccessful, m)
  else (.failedToSelect, m)

end SoreOS.MediaUtility
