import SoreOS.Native.LoaderSearch
import SoreOS.ForStd.Halting

/-!
# Booting

`boot/boot.s` with `A20_test.s`: from the partition table to the jump into the kernel. The first
sector is at `0x7C00`; `kernel_loader` runs from the sector of the volume, which is read behind it.
-/

namespace SoreOS.Boot

open ForStd

/-! ## The file `boot-loader` -/

/-- The bytes of `KERNEL_NAME`. -/
def KERNEL_NAME : List UInt8 := [75, 69, 82, 78, 69, 76, 32, 32, 83, 89, 83]

/-- The assembled sources, and the addresses of `LOWER`, which has `UPPER` behind it, and of `KERNEL_NAME`
    in them: they are behind the header, in front of the mark of the second sector. -/
structure BootFile where
  code : List UInt8
  lowerAddress : Word
  nameAddress : Word
  inSecond : 0x7E64 ≤ lowerAddress.toNat ∧ lowerAddress.toNat + 4 ≤ nameAddress.toNat ∧
    nameAddress.toNat + 11 ≤ 0x7FFE
  name : ∀ j < 11, code.getD (nameAddress.toNat - 0x7C00 + j) 0 = KERNEL_NAME.getD j 0

/-- The byte is one of `LOWER` and `UPPER`, which `div32` writes. -/
def BootFile.isVariable (f : BootFile) (i : Nat) : Bool :=
  decide (f.lowerAddress.toNat ≤ 0x7E64 + i ∧ 0x7E64 + i < f.lowerAddress.toNat + 4)

/-- The code and the constants behind the header are those of the file. -/
def BootFile.isLoaded (f : BootFile) (m : Bytes) : Bool :=
  (List.range 410).all fun i => f.isVariable i || m (0x7E64 + (i : Nat)) = f.code.getD (0x264 + i) 0

/-! ## Loading the kernel -/

/-- The messages in front of a `jmp .` -/
inductive Message where
  /-- `"Missing Bootable Partition!\n\r"` -/
  | BOOT_ERROR
  /-- `"Failed To Load Root!\n\r"` -/
  | ROOT_ERROR
  /-- `"Kernel File Not Found!\n\r"` -/
  | FIND_ERROR
  /-- `"Failed To Load Kernel!\n\r"` -/
  | KERN_ERROR
  /-- `"Failed to Enable Line A20!\n\r"` -/
  | A20_ERROR
  deriving DecidableEq, Repr

/-- How loading the kernel ends, if it does: `kernel_loader` returns, a message is printed and the
    processor hangs, `div` raises an error, or what runs is not the code of the file. -/
inductive Loading where
  | loaded (s : Loader)
  | hangs (message : Message) (s : Loader)
  | divideError (s : Loader)
  | foreign (s : Loader)
  | running (s : Loader)

/-- What follows a call of `load_file`. -/
def Outcome.andThen (o : Outcome) (message : Message) (next : Loader → Loading) : Loading :=
  match o with
  | .returned true s => .hangs message s
  | .returned false s => next s
  | .divideError s => .divideError s
  | .overwritten s => .foreign s
  | .running s => .running s

/-- Loads the kernel over the root folder. `regs` has the registers at the call of `find_file` that are not
    set for it; the rounds are a bound for each of the three loops. -/
def kernel_loader (b : Bios) (f : BootFile) (rounds : Nat) (regs : Find) (s : Loader) : Loading :=
  (load_file b rounds 0x0002 0x0000 0x8200 s).andThen .ROOT_ERROR fun s =>
    let call := { regs with label := .findFile, si := f.nameAddress, bx := 0x8200 }
    match evalFor (find_file s.mem) rounds call with
    | none => .running s
    | some regs =>
      if regs.carry then .hangs .FIND_ERROR s
      else (load_file b rounds regs.ax regs.dx 0x8200 s).andThen .KERN_ERROR .loaded

/-- The packet for the sector of the volume, from the partition entry at `%bx`. -/
def volumePacket (m : Bytes) (bx : Word) : Dap where
  DAP_LBA_1 := movw m (bx + 8).toNat
  DAP_LBA_2 := movw m (bx + 10).toNat
  DAP_DST_LOW := 0x7E00
  DAP_SECTORS := 1

/-- Checks the first partition and loads the kernel from it. -/
def boot_loader (b : Bios) (f : BootFile) (rounds : Nat) (regs : Find) (s : Loader) : Loading :=
  let bx : Word := 0x7DBE
  -- a FAT32 file system, and a nonzero sector number
  if s.mem (bx + 4).toNat ≠ 0x0C then .hangs .BOOT_ERROR s
  else if s.mem (bx + 3).toNat = 0x00 then .hangs .BOOT_ERROR s
  else
    -- the carry flag is not tested
    let (_, s) := load_disk b s (volumePacket s.mem bx)
    if f.isLoaded s.mem then kernel_loader b f rounds regs s else .foreign s

/-! ## Line A20 -/

/-- What controls the line: a BIOS function, and bit 1 of port `0x92`. Both see whether it is enabled
    and say whether it is so afterwards. -/
structure A20Gate where
  int15 : Bool → Bool
  in92 : UInt8
  out92 : UInt8 → Bool → Bool

/-- The memory, and whether the line is enabled. -/
structure A20State where
  mem : Bytes
  line : Bool

/-- `%es:(%bx)` as the memory sees it: without the line bit 20 is cleared. -/
def A20State.address (s : A20State) (es bx : Word) : Int :=
  let a := es.toNat * 16 + bx.toNat
  if s.line then a else (a - a / 0x100000 % 2 * 0x100000 : Nat)

/-- Tests if the line is enabled. The carry flag is set if the test fails. -/
def A20Test (s : A20State) : Bool × A20State :=
  let s := { s with mem := s.mem.set (s.address 0x0000 0x0500) 1 }
  let al := s.mem (s.address 0xFFFF 0x0510)
  (al ^^^ 1 = 0, s)

/-- Enables the line, and says whether the test succeeds in the end. -/
def enable_a20 (g : A20Gate) (s : A20State) : Bool × A20State :=
  let (carry, s) := A20Test s
  if !carry then (true, s)
  else
    let s := { s with line := g.int15 s.line }
    let (carry, s) := A20Test s
    if !carry then (true, s)
    else
      let s := { s with line := g.out92 (g.in92 ||| 2) s.line }
      let (carry, s) := A20Test s
      (!carry, s)

/-! ## The whole boot -/

/-- How booting ends: the kernel is called in protected mode, or it is not. -/
inductive Booted where
  | kernel (s : A20State) (log : List Dap)
  | failed (how : Loading)

/-- From the first sector to the kernel. -/
def boot (b : Bios) (f : BootFile) (g : A20Gate) (rounds : Nat) (regs : Find) (line : Bool) (s : Loader) : Booted :=
  match boot_loader b f rounds regs s with
  | .loaded s =>
    let (enabled, a20) := enable_a20 g ⟨s.mem, line⟩
    if enabled then .kernel a20 s.log else .failed (.hangs .A20_ERROR { s with mem := a20.mem })
  | how => .failed how

end SoreOS.Boot
