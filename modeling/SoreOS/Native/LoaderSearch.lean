import SoreOS.Native.Loader

/-!
# Boot loader: finding the kernel

`boot/find_file.s`, with a variable for each register it uses. A step runs from one label
to the next jump. `lodsb` counts up, as the direction flag is clear.
-/

namespace SoreOS.Boot

open ForStd

/-- `mov b, r` with the lower byte of a register. -/
def setLow (r : Word) (b : UInt8) : Word := r.extractLsb' 8 8 ++ b.toBitVec

/-- The entry of `find_file`, its labels in order (`1`, `2`, `2`, `3`, `1`), and the end behind `ret`. -/
inductive FindLabel where
  | findFile
  | file
  | char
  | next
  | notFound
  | found
  | returned
  deriving DecidableEq, Repr

/-- The registers, the carry flag and what has been pushed, the last word first. -/
structure Find where
  label : FindLabel
  ax : Word
  bx : Word
  cx : Word
  dx : Word
  si : Word
  carry : Bool
  stack : List Word
  deriving DecidableEq, Repr

/-- A step of `find_file`. `%si` is the address of the template, `%bx` that of the first record of the
    folder. There is no step behind `ret`, or if a word is popped that is not there. -/
def find_file (m : Bytes) (s : Find) : Option Find :=
  match s.label with
  | .findFile => some { s with label := .file, stack := s.bx :: s.cx :: s.stack }
  | .file =>
    let al := m s.bx.toNat
    let s := { s with ax := setLow s.ax al, carry := false, stack := s.si :: s.bx :: s.stack }
    if al = 0 then some { s with label := .notFound } else some { s with label := .char, cx := 0 }
  | .char =>
    let al := m s.si.toNat
    let dl := m s.bx.toNat ^^^ al
    let s := { s with ax := setLow s.ax al, si := s.si + 1, dx := setLow s.dx dl, carry := false }
    if dl ≠ 0 then some { s with label := .next }
    else if s.cx = (10 : Word) then some { s with label := .found }
    -- the counters leave the carry flag of the comparison alone
    else some { s with carry := s.cx.ult 10, cx := s.cx + 1, bx := s.bx + 1 }
  | .next =>
    match s.stack with
    | si :: bx :: stack =>
      some { s with label := .file, si := si, bx := bx + 32, carry := bx.uaddOverflow 32, stack := stack }
    | _ => none
  | .notFound => some { s with label := .found, carry := true }
  | .found =>
    match s.stack with
    | si :: record :: bx :: cx :: stack =>
      some { s with
        label := .returned
        ax := movw m (record + 0x1A).toNat
        dx := movw m (record + 0x14).toNat
        si := si
        bx := bx
        cx := cx
        stack := stack }
    | _ => none
  | .returned => none

end SoreOS.Boot
