import SoreOS.Native.CString

/-!
# ATA drive

`identify` and `readSector` of `drivers/filesys.c`, over a drive with its command
ports. The drive answers every wait of `readSector` with some busy status bytes
and then one that ends the wait.
-/

namespace SoreOS

open ForStd

/-- `(status & 0x80) != 0 || (status & 0x09) == 0`: the polling loop goes on. -/
def waits (status : UInt8) : Bool := status &&& 0x80 ≠ 0 || status &&& 0x09 = 0

/-- `(status & 0x01) == 0`: the ERR bit is clear. -/
def noError (status : UInt8) : Bool := status &&& 0x01 = 0

/-- The status bytes of one wait: the last one ends it. -/
structure Wait where
  busy : List UInt8 := []
  ready : UInt8
  busy_waits : ∀ status ∈ busy, waits status = true := by simp
  ready_ends : waits ready = false := by decide

/-- A wait that ends with DRQ, and one that ends with ERR. -/
def Wait.good : Wait where
  ready := 0x08

def Wait.bad : Wait where
  ready := 0x01

/-- A drive: its contents, how it answers each wait since power-on, and what the
    status and LBA ports hold while it is identified. -/
structure Drive where
  disk : Bytes
  wait : Nat → Wait
  identifyStatus : List UInt8 := []
  identifyMid : UInt8 := 0
  identifyHi : UInt8 := 0

/-- The registers behind ports `0x1F2` to `0x1F6`. -/
structure Ports where
  sectorCount : UInt8
  lbaLo : UInt8
  lbaMid : UInt8
  lbaHi : UInt8
  head : UInt8

/-- The sector a command starts at: the low half of the head register holds the
    highest four address bits. -/
def Ports.address (p : Ports) : Nat :=
  p.lbaLo.toNat + 256 * p.lbaMid.toNat + 65536 * p.lbaHi.toNat + 16777216 * (p.head &&& 0x0F).toNat

/-- `while ((status & 0x80) != 0)`: the first byte with BSY clear, and the bytes after it. -/
def pollBusy : List UInt8 → Option (UInt8 × List UInt8)
  | [] => none
  | status :: rest => if status &&& 0x80 ≠ 0 then pollBusy rest else some (status, rest)

/-- Identifies if a drive exists. `none` means that the function does not return:
    its last loop has an empty body, so a byte with neither DRQ nor ERR in it is
    tested over and over. -/
def identify (d : Drive) : Option Bool :=
  match d.identifyStatus with
  | [] => none
  | status :: rest =>
    if status = 0 then some false
    else
      match pollBusy (status :: rest) with
      | none => none
      | some (status, rest) =>
        if d.identifyMid ≠ 0 || d.identifyHi ≠ 0 then some false
        else if status &&& 0x09 = 0 then none
        else
          -- the block behind the loop reads the status once more
          match rest with
          | [] => none
          | status :: _ => some (noError status)

/-- The polling loop of `readSector`. -/
def pollStatus : List UInt8 → UInt8 → UInt8
  | [], last => last
  | status :: rest, last => if waits status then pollStatus rest last else status

/-- What the loop leaves in `status` at the `n`th wait. -/
def Drive.status (d : Drive) (n : Nat) : UInt8 := pollStatus (d.wait n).busy (d.wait n).ready

/-- `readSector` sends a sector count and the low 24 bits of the address. -/
def commandPorts (sectors LBA : Int) : Ports where
  head := 0x40
  sectorCount := UInt8.ofInt sectors
  lbaLo := UInt8.ofInt LBA
  lbaMid := UInt8.ofInt (LBA / 256)
  lbaHi := UInt8.ofInt (LBA / 65536)

/-- `for (i = 0; i < 512; i += 2) *(short*)(buffer+i+s*512) = inw(0x1F0)`: the word
    loop over the sector at byte `base` of the disk, after `n` words. -/
def readWords (disk : Bytes) (base : Int) (buffer : Bytes) (off : Int) : Nat → Bytes
  | 0 => buffer
  | n + 1 =>
    let b := readWords disk base buffer off n
    (b.set (off + 2 * n) (disk (base + 2 * n))).set (off + 2 * n + 1) (disk (base + 2 * n + 1))

/-- The loop over the sectors still to come, from sector `s` on, with the number
    of waits the drive has answered so far. The words of a sector go to `buffer`,
    which points into an array `o`. -/
def readSectorLoop (d : Drive) (o : Obj) (address : Nat) :
    Nat → Nat → Nat → Bytes → Except Fault (Bool × Bytes × Nat)
  | 0, _, n, buffer => .ok (true, buffer, n)
  | sectors + 1, s, n, buffer =>
    if noError (d.status n) then
      if (s + 1) * 512 ≤ o.size then
        readSectorLoop d o address sectors (s + 1) (n + 1)
          (readWords d.disk ((address + s) * 512) buffer (s * 512) 256)
      else .error ⟨o, s * 512⟩
    else .ok (false, buffer, n + 1)

/-- Reads sectors starting from some LBA address into a buffer. -/
def readSector (d : Drive) (n : Nat) (sectors LBA : Int) (o : Obj) (buffer : Bytes) :
    Except Fault (Bool × Bytes × Nat) :=
  readSectorLoop d o (commandPorts sectors LBA).address sectors.toNat 0 n buffer

end SoreOS
