import SoreOS.Native.CString
import SoreOS.ForStd.Halves
import SoreOS.ForStd.LittleEndian

/-!
# Boot loader

`load_file` of `boot/load_file.s`, with `div32` and `load_disk`: 16-bit code with all
segment registers zero, a variable for each register. The code and the header it reads
are in memory from `0x7C00` to `0x7FFF`; the stack is the BIOS's. The variables of
the code, `LOWER` and `UPPER`, the disk address packet and `BOOT_DRIVE`, are values of the
functions here or left out, and have no place in the modelled memory.
-/

namespace SoreOS.Boot

open ForStd

/-- A 16-bit register. -/
abbrev Word := BitVec 16

/-! ## Instructions -/

/-- `mov a, r` with a word register. -/
def movw (m : Bytes) (a : Int) : Word := BitVec.ofNat 16 (m.loadLE a 2)

/-- `mov a, r` with a byte register whose upper half is clear or not used. -/
def movb (m : Bytes) (a : Int) : Word := BitVec.ofNat 16 (m a).toNat

/-- `shl %cl, r`: the processor takes the count modulo 32. -/
def shl (cx r : Word) : Word := r <<< (cx.toNat % 32)

/-- `rol %cl, r` -/
def rol (cx r : Word) : Word := r.rotateLeft (cx.toNat % 32)

/-- `div %cx`: the quotient and the remainder of `%dx:%ax`, or a divide error. -/
def div (dx ax cx : Word) : Option (Word × Word) :=
  let quotient := (dx ++ ax).toNat / cx.toNat
  if cx ≠ 0 ∧ quotient < 65536 then
    some (BitVec.ofNat 16 quotient, BitVec.ofNat 16 ((dx ++ ax).toNat % cx.toNat))
  else none

/-- Divides a 32 bit number by a 16 bit number: `LOWER`, `UPPER` and the remainder. The source writes the first
    two to memory, from where `load_file` reads them. -/
def div32 (ax dx cx : Word) : Option (Word × Word × Word) := do
  let (LOWER, bx) ← div 0 ax cx
  let (UPPER, rest) ← div 0 dx cx
  let (ax, dx) ← div rest 0 cx
  let dx := dx + bx
  -- `jl` compares signed numbers
  let (ax, dx) := if dx.slt cx then (ax, dx) else (ax + 1, dx - cx)
  return (LOWER + ax, if LOWER.uaddOverflow ax then UPPER + 1 else UPPER, dx)

/-! ## Reading sectors -/

/-- The fields of the disk address packet that are not always zero. -/
structure Dap where
  DAP_SECTORS : Word
  DAP_DST_LOW : Word
  DAP_LBA_1 : Word
  DAP_LBA_2 : Word
  deriving DecidableEq, Repr

namespace Dap

/-- The first sector. -/
def lba (p : Dap) : Nat := (p.DAP_LBA_2 ++ p.DAP_LBA_1).toNat

/-- The bytes of the transfer: the first address, and how many. -/
def dst (p : Dap) : Nat := p.DAP_DST_LOW.toNat

def size (p : Dap) : Nat := p.DAP_SECTORS.toNat * 512

end Dap

/-- What the extended read function of the BIOS finds: the drive, and whether the `n`th
    call succeeds. -/
structure Bios where
  disk : Bytes
  succeeds : Nat → Bool

/-- The memory but for the packet, `LOWER` and `UPPER`, and the packets of all calls of the BIOS. -/
structure Loader where
  mem : Bytes
  log : List Dap := []

/-- Loads sectors from the hard disk booted from. The result is the carry flag. -/
def load_disk (b : Bios) (s : Loader) (p : Dap) : Bool × Loader :=
  if b.succeeds s.log.length then
    (false, { mem := memcpyObj s.mem p.dst b.disk (p.lba * 512) p.size, log := s.log ++ [p] })
  else (true, { s with log := s.log ++ [p] })

/-! ## `load_file` -/

/-- The first part of `load_file`: the packet for the cluster `%dx:%ax`. -/
def clusterPacket (m : Bytes) (ax dx bx : Word) : Dap :=
  -- the cluster number counts from 2
  let carry := ax.usubOverflow 2
  let ax := ax - 2
  let dx := dx - 0 - flag carry
  -- times the sectors per cluster: the mask picks the bits that go to the upper half
  let cx := movb m 0x7E62
  let dx := shl cx dx
  let rotated := rol cx ax
  let cx := movb m 0x7E63
  let dx := dx ||| (rotated &&& cx)
  let ax := rotated &&& ~~~cx
  -- plus the address of the cluster region
  let cx := movw m 0x7E5E
  let carry := ax.uaddOverflow cx
  let ax := ax + cx
  let cx := movw m 0x7E60
  let dx := dx + cx + flag carry
  { DAP_LBA_1 := ax, DAP_LBA_2 := dx, DAP_DST_LOW := bx, DAP_SECTORS := movb m 0x7E0D }

/-- The second part: the packet for the sector of the cluster's FAT entry, and the
    offset of the entry in it. -/
def fatPacket (m : Bytes) (ax dx : Word) : Option (Dap × Word) := do
  -- 128 entries in each sector
  let (LOWER, UPPER, dx) ← div32 ax dx 128
  let offset := dx <<< 2
  -- plus the address of the FAT region
  let cx := movw m 0x7E5A
  let carry := LOWER.uaddOverflow cx
  let ax := LOWER + cx
  let cx := movw m 0x7E5C
  let dx := UPPER + cx + flag carry
  return ({ DAP_LBA_1 := ax, DAP_LBA_2 := dx, DAP_DST_LOW := 0x8000, DAP_SECTORS := 1 }, offset)

/-- The transfer writes to the loader's own bytes. -/
def Dap.hitsLoader (p : Dap) : Bool := decide (p.dst < 0x8000 ∧ 0x7C00 < p.dst + p.size)

/-- How `load_file` ends, if it does: it returns with the carry flag, `div` raises an
    error, or what runs from now on is no longer the loader. -/
inductive Outcome where
  | returned (carry : Bool) (s : Loader)
  | divideError (s : Loader)
  | overwritten (s : Loader)
  | running (s : Loader)

/-- Loads all clusters of a file into memory, at most as many as there are rounds. -/
def load_file (b : Bios) : Nat → Word → Word → Word → Loader → Outcome
  | 0, _, _, _, s => .running s
  | rounds + 1, ax, dx, bx, s =>
    let p := clusterPacket s.mem ax dx bx
    let (carry, s) := load_disk b s p
    if carry then .returned carry s
    else if p.hitsLoader then .overwritten s
    else
      match fatPacket s.mem ax dx with
      | none => .divideError s
      | some (p, cx) =>
        let (carry, s) := load_disk b s p
        if carry then .returned carry s
        else
          let entry := 0x8000 + cx
          let ax := movw s.mem entry.toNat
          let dx := movw s.mem (entry + 2).toNat
          -- the comparison that succeeds clears the carry flag
          if ax = 0xFFFF ∧ dx = 0x0FFF then .returned false s
          else load_file b rounds ax dx (bx + shl (movb s.mem 0x7E62) 0x0200) s

end SoreOS.Boot
