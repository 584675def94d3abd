import SoreOS.Native.Drive

/-!
# Identifying the drive, read by read

`identify` of `drivers/filesys.c` with the status bytes that its loops consume.
-/

namespace SoreOS

/-- Where `identify` is: in front of the read behind the command, of a test or of a loop's
    condition, or behind a `return`. -/
inductive IdentifyPoint where
  | command
  | present
  | busy
  | ports
  | ready
  | data
  | returned (result : Bool)
  deriving DecidableEq, Repr

/-- The variable `status`, and the status bytes that the drive has yet to send. -/
structure Identify where
  point : IdentifyPoint
  status : UInt8
  stream : List UInt8
  deriving DecidableEq, Repr

/-- `status = inb(0x1F7)`. There is no step if the stream has ended. -/
def Identify.inb (s : Identify) (point : IdentifyPoint) : Option Identify :=
  match s.stream with
  | [] => none
  | status :: rest => some ⟨point, status, rest⟩

/-- A step of `identify` on a drive. -/
def identifyStep (d : Drive) (s : Identify) : Option Identify :=
  match s.point with
  | .command => s.inb .present
  | .present => if s.status = 0 then some { s with point := .returned false } else some { s with point := .busy }
  | .busy => if s.status &&& 0x80 ≠ 0 then s.inb .busy else some { s with point := .ports }
  | .ports =>
    if d.identifyMid ≠ 0 || d.identifyHi ≠ 0 then some { s with point := .returned false }
    else some { s with point := .ready }
  -- `while ((status & 0x09) == 0);` has an empty body, and the block behind it is not a loop's
  | .ready => if s.status &&& 0x09 = 0 then some s else s.inb .data
  -- the words that are read where there is no error go to a local array
  | .data => some { s with point := .returned (noError s.status) }
  | .returned _ => none

/-- `status` is -1 before the first read. -/
def identifyStart (d : Drive) : Identify := ⟨.command, 0xFF, d.identifyStatus⟩

end SoreOS
