import SoreOS.Spec.BootSafety

/-!
# From the disk to the kernel

What `boot` does with a disk that has a partition, the boot loader's two sectors and a volume of four
sectors per cluster, if all reads succeed.

## Key results

- `Returns.behind`: the reads before a call make no difference to it
- `returns_of_hasClusters`: a file of up to 15 clusters is loaded, whatever was read before
- `kernel_entered`: the kernel is in memory when it is called
- `kernel_missing`: a disk without a kernel
-/

namespace SoreOS.Boot

open ForStd

/-! ## Calls one after the other -/

/-- The BIOS as a call after `n` others finds it. -/
def Bios.after (b : Bios) (n : Nat) : Bios := { b with succeeds := fun i => b.succeeds (n + i) }

/-- The same memory, with other reads in front. -/
def Loader.behind (log : List Dap) (s : Loader) : Loader := { s with log := log ++ s.log }

section Behind

variable {b : Bios} {log : List Dap}

theorem load_disk_behind {s t : Loader} {p : Dap} {carry : Bool}
    (h : load_disk (b.after log.length) s p = (carry, t)) : load_disk b (s.behind log) p = (carry, t.behind log) := by
  have hlen : (s.behind log).log.length = log.length + s.log.length := List.length_append
  rw [load_disk] at h ⊢
  rw [hlen]
  by_cases hgood : b.succeeds (log.length + s.log.length) = true
  · obtain ⟨rfl, rfl⟩ := Prod.mk.inj ((if_pos hgood).symm.trans h)
    rw [if_pos hgood, Loader.behind, Loader.behind, List.append_assoc]
    rfl
  · obtain ⟨rfl, rfl⟩ := Prod.mk.inj ((if_neg hgood).symm.trans h)
    rw [if_neg hgood, Loader.behind, Loader.behind, List.append_assoc]

theorem RoundRead.behind {ax dx bx cx : Word} {s s₁ : Loader} {p : Dap}
    (h : RoundRead (b.after log.length) ax dx bx s p cx s₁) : RoundRead b ax dx bx (s.behind log) p cx (s₁.behind log) :=
  ⟨load_disk_behind h.cluster, h.miss, h.packet⟩

theorem Returns.behind {ax dx bx : Word} {s t : Loader} {carry : Bool}
    (h : Returns (b.after log.length) ax dx bx s carry t) : Returns b ax dx bx (s.behind log) carry (t.behind log) := by
  induction h with
  | clusterError h => exact .clusterError (load_disk_behind h)
  | fatError hround h => exact .fatError hround.behind (load_disk_behind h)
  | ends hround h hend => exact .ends hround.behind (load_disk_behind h) hend
  | next hround h hgoes _ ih => exact .next hround.behind (load_disk_behind h) hgoes ih

end Behind

/-- A file of up to 15 clusters is loaded to `0x8200`, whatever was read before. -/
theorem returns_of_hasClusters {b : Bios} {hdr : FAT32_HEADER} (h4 : FourSectors hdr)
    (hgood : ∀ n, b.succeeds n = true) {s : Loader} (hm : HoldsHeader s.mem hdr) {ax dx : Word} {n : Nat} (hn : n ≤ 15)
    (hchain : HasClusters b.disk hdr (dx ++ ax) n) :
    ∃ t, Returns b ax dx 0x8200 s false t ∧ HoldsHeader t.mem hdr ∧
      ∀ i < n, PlacedAt t.mem b.disk hdr (clusterAt b.disk hdr (dx ++ ax) i) i := by
  obtain ⟨i, rfl⟩ := Nat.exists_eq_add_one_of_ne_zero (Nat.ne_of_gt hchain.pos)
  obtain ⟨t, hafter, hrun⟩ := load_file_end (b := b.after s.log.length) h4 (fun n => hgood _) hm rfl (by omega)
    (fun j hj => hchain.goes j (by omega)) hchain.ends
  have hreturns := (returns_of_load_file hrun).behind
  rw [Loader.behind, List.append_nil] at hreturns
  exact ⟨_, hreturns, hafter.header, hafter.placed hn⟩

/-! ## The disk -/

/-- The first byte of the volume, by the partition entry. -/
def volumeStart (disk : Bytes) : Nat := disk.loadLE 0x1C6 4 * 512

/-- The disk has a FAT32 partition whose first sector has a header and the code behind it. -/
structure Bootable (f : BootFile) (disk : Bytes) (hdr : FAT32_HEADER) : Prop where
  entry : disk 0x1C2 = 0x0C ∧ disk 0x1C1 ≠ 0
  header : readHeader (subBuffer disk (volumeStart disk)) = hdr
  code : ∀ i < 410, disk (volumeStart disk + (0x64 + (i : Nat))) = f.code.getD (0x264 + i) 0

/-- The first sector of the disk is where the BIOS loads it. -/
def FirstSector (m disk : Bytes) : Prop := ∀ i, 0 ≤ i → i < 512 → m (0x7C00 + i) = disk i

/-- With a sector at `0x7E00`, the loader finds the header that the kernel reads from it. -/
theorem holdsHeader_readHeader {m b : Bytes} (hm : ∀ i, 0 ≤ i → i < 512 → m (0x7E00 + i) = b i) :
    HoldsHeader m (readHeader b) := by
  have hbyte : ∀ i : Int, 0 ≤ i → i < 512 → m (0x7E00 + i) = readDB b i := by
    intro i h0 hi
    rw [hm i h0 hi, readDB, Mem.loadLE, Mem.loadLE, Nat.mul_zero, Nat.add_zero, UInt8.ofNat_toNat]
  have hdword : ∀ i : Int, 0 ≤ i → i < 508 → movw m (0x7E00 + i + 2) ++ movw m (0x7E00 + i) = (readDD b i).toBitVec := by
    intro i h0 hi
    rw [movw_append, readDD]
    congr 1
    apply Mem.loadLE_congr
    intro j hj
    rw [Int.add_assoc, hm _ (by omega) (by omega)]
  exact ⟨hbyte 0x0D (by decide) (by decide), hdword 0x5A (by decide) (by decide), hdword 0x5E (by decide) (by decide),
    hbyte 0x62 (by decide) (by decide), hbyte 0x63 (by decide) (by decide)⟩

section Disk

variable {b : Bios} {f : BootFile} {hdr : FAT32_HEADER} {m : Bytes} (hfirst : FirstSector m b.disk)
include hfirst

theorem FirstSector.volumePacket_lba : (volumePacket m 0x7DBE).lba = b.disk.loadLE 0x1C6 4 := by
  have hlt := b.disk.loadLE_lt 0x1C6 4
  have hload : m.loadLE 0x7DC6 4 = b.disk.loadLE 0x1C6 4 := by
    apply Mem.loadLE_congr
    intro i hi
    rw [← hfirst _ (by omega) (by omega)]
    congr 1
    omega
  show (movw m (0x7DC6 + 2) ++ movw m 0x7DC6).toNat = _
  rw [movw_append, hload, BitVec.toNat_ofNat]
  exact Nat.mod_eq_of_lt hlt

/-- The sector of the volume is behind the first one. -/
theorem FirstSector.volumeRead_mem (hgood : b.succeeds 0 = true) (a : Int) :
    (volumeRead b ⟨m, []⟩).mem a = if 0x7E00 ≤ a ∧ a < 0x8000 then b.disk (volumeStart b.disk + (a - 0x7E00)) else m a := by
  have hone : (1 : Word).toNat * 512 = 512 := rfl
  have hsize : (volumePacket m 0x7DBE).size = 512 := hone
  have hdst : (volumePacket m 0x7DBE).dst = 0x7E00 := rfl
  rw [volumeRead, load_disk_good hgood]
  show memcpyObj m _ b.disk _ _ a = _
  rw [memcpyObj, Mem.copyFrom_apply, hdst, hsize, hfirst.volumePacket_lba, volumeStart]
  push_cast
  rfl

end Disk

/-- The cluster number in a record on the disk. -/
def recordStart (disk : Bytes) (record : Int) : BitVec 32 := movw disk (record + 0x14) ++ movw disk (record + 0x1A)

/-- A record of the root folder. -/
def rootRecord (disk : Bytes) (hdr : FAT32_HEADER) (i : Nat) : Int := recordOnDisk disk hdr 2#32 i

/-- The record of the root folder is not the end, and has another name than the kernel. -/
def OtherRecord (disk : Bytes) (hdr : FAT32_HEADER) (i : Nat) : Prop :=
  disk (rootRecord disk hdr i) ≠ 0 ∧ disk.read (rootRecord disk hdr i) 11 ≠ KERNEL_NAME

/-- The root folder has `n` clusters, which fit, and no record with the kernel's name or the end among its
    first `k` records. -/
structure RootFolder (disk : Bytes) (hdr : FAT32_HEADER) (n k : Nat) : Prop where
  chain : HasClusters disk hdr 2#32 n
  fits : n ≤ 15
  inside : k < 64 * n
  others : ∀ j < k, OtherRecord disk hdr j

section Root

variable {b : Bios} {f : BootFile} {hdr : FAT32_HEADER} {s t : Loader} {n : Nat} (hn : n ≤ 15)
  (hcode : f.isLoaded t.mem = true)
  (hplaced : ∀ i < n, PlacedAt t.mem b.disk hdr (clusterAt b.disk hdr 2#32 i) i)
include hn hplaced

/-- The loaded root folder, byte by byte. -/
theorem root_apply {i j : Nat} (hi : i < 64 * n) (hj : j < 32) :
    t.mem (recordAddress 0x8200 i + BitVec.ofNat 16 j).toNat = b.disk (rootRecord b.disk hdr i + j) :=
  record_placed hn hplaced hi hj

theorem endsFolder_iff {i : Nat} (hi : i < 64 * n) :
    EndsFolder t.mem 0x8200 i ↔ b.disk (rootRecord b.disk hdr i) = 0 := by
  have hbyte := root_apply hn hplaced hi (j := 0) (by omega)
  rw [show BitVec.ofNat 16 0 = 0#16 from rfl, BitVec.add_zero, Nat.cast_zero, Int.add_zero] at hbyte
  rw [EndsFolder, hbyte]

theorem recordCluster_root {i : Nat} (hi : i < 64 * n) :
    recordCluster t.mem (recordAddress 0x8200 i) = recordStart b.disk (rootRecord b.disk hdr i) := by
  have hword : ∀ j < 31, movw t.mem (recordAddress 0x8200 i + BitVec.ofNat 16 j).toNat =
      movw b.disk (rootRecord b.disk hdr i + j) := by
    intro j hj
    rw [movw, movw]
    congr 1
    apply Mem.loadLE_congr
    intro k hk
    have hbyte := root_apply hn hplaced hi (j := j + k) (by omega)
    rw [recordAddress_toNat (by omega)] at hbyte ⊢
    rw [Int.add_assoc, ← Nat.cast_add j k, ← hbyte]
    congr 1
    omega
  exact congrArg₂ (· ++ ·) (hword 0x14 (by omega)) (hword 0x1A (by omega))

include hcode

theorem hasName_iff {i : Nat} (hi : i < 64 * n) :
    HasName t.mem 0x8200 f.nameAddress i ↔ b.disk.read (rootRecord b.disk hdr i) 11 = KERNEL_NAME := by
  have hname : ∀ j < 11, t.mem (f.nameAddress + BitVec.ofNat 16 j).toNat = KERNEL_NAME.getD j 0 := by
    intro j hj
    have hin := f.inSecond
    have hnat : (f.nameAddress + BitVec.ofNat 16 j).toNat = f.nameAddress.toNat + j := by
      rw [BitVec.toNat_add, BitVec.toNat_ofNat]
      omega
    have hbyte := (isLoaded_iff f t.mem).mp hcode (f.nameAddress.toNat + j - 0x7E64) (by omega)
      (decide_eq_false (by omega))
    rw [hnat, ← f.name j hj]
    refine Eq.trans (congrArg t.mem ?_) (hbyte.trans (congrArg (f.code.getD · 0) ?_))
    · omega
    · omega
  have hlen : KERNEL_NAME.length = 11 := rfl
  rw [← hlen, Mem.read_eq_iff]
  constructor
  · intro h j hj
    have hsame : t.mem _ = t.mem _ := h j hj
    rw [← root_apply hn hplaced hi (by omega), hsame, hname j hj, List.getD_eq_getElem _ _ hj]
  · intro h j hj
    show t.mem _ = t.mem _
    rw [root_apply hn hplaced hi (by omega), hname j hj, h j hj, List.getD_eq_getElem _ _ hj]

end Root

/-! ## The run -/

section Run

variable {b : Bios} {f : BootFile} {hdr : FAT32_HEADER} {m : Bytes} (hdisk : Bootable f b.disk hdr)
  (hfirst : FirstSector m b.disk)
include hdisk hfirst

theorem Bootable.fat32Entry : Fat32Entry m :=
  ⟨(hfirst 0x1C2 (by decide) (by decide)).trans hdisk.entry.1,
    fun hzero => hdisk.entry.2 ((hfirst 0x1C1 (by decide) (by decide)).symm.trans hzero)⟩

theorem Bootable.volumeRead (hgood : b.succeeds 0 = true) :
    HoldsHeader (volumeRead b ⟨m, []⟩).mem hdr ∧ f.isLoaded (volumeRead b ⟨m, []⟩).mem = true := by
  have hmem := hfirst.volumeRead_mem hgood
  constructor
  · rw [← hdisk.header]
    apply holdsHeader_readHeader
    intro i h0 hi
    rw [hmem, if_pos (by omega), subBuffer]
    congr 1
    omega
  · rw [isLoaded_iff]
    intro i hi _
    rw [hmem, if_pos (by omega), ← hdisk.code i hi]
    congr 1
    omega

theorem Loads.boot_loader {o : Loading} (h : Loads b f (Boot.volumeRead b ⟨m, []⟩) o) (hgood : b.succeeds 0 = true)
    (regs : Find) : ∃ N, ∀ rounds ≥ N, boot_loader b f rounds regs ⟨m, []⟩ = o := by
  obtain ⟨N, hN⟩ := h.kernel_loader regs
  refine ⟨N, fun rounds hrounds => ?_⟩
  rw [boot_loader_eq, if_pos (hdisk.fat32Entry hfirst), if_pos (hdisk.volumeRead hfirst hgood).2, hN rounds hrounds]

variable (h4 : FourSectors hdr) (hgood : ∀ n, b.succeeds n = true) {n k : Nat} (hroot : RootFolder b.disk hdr n k)
include h4 hgood hroot

/-- A root folder that fits is loaded. -/
theorem root_loaded :
    ∃ t, Returns b 0x0002 0x0000 0x8200 (volumeRead b ⟨m, []⟩) false t ∧ HoldsHeader t.mem hdr ∧
      f.isLoaded t.mem = true ∧ ∀ i < n, PlacedAt t.mem b.disk hdr (clusterAt b.disk hdr 2#32 i) i := by
  obtain ⟨hheader, hcode⟩ := hdisk.volumeRead hfirst (hgood 0)
  have htwo : (0x0000 : Word) ++ (0x0002 : Word) = 2#32 := rfl
  obtain ⟨t, hreturns, hheader', hplaced⟩ := returns_of_hasClusters h4 hgood hheader hroot.fits (htwo ▸ hroot.chain)
  exact ⟨t, hreturns, hheader', isLoaded_congr hreturns.reads.loader hcode, hplaced⟩

/-- A root folder without the kernel. -/
theorem loads_none (hend : b.disk (rootRecord b.disk hdr k) = 0) :
    ∃ t, Loads b f (volumeRead b ⟨m, []⟩) (.hangs .FIND_ERROR t) := by
  obtain ⟨t, hreturns, -, hcode, hplaced⟩ := root_loaded hdisk hfirst h4 hgood hroot
  have hin := hroot.inside
  refine ⟨t, .findError hreturns ⟨k, fun j hj => ⟨?_, ?_⟩, (endsFolder_iff hroot.fits hplaced hin).mpr hend⟩⟩
  · exact mt (endsFolder_iff hroot.fits hplaced (by omega)).mp (hroot.others j hj).1
  · exact mt (hasName_iff hroot.fits hcode hplaced (by omega)).mp (hroot.others j hj).2

/-- A root folder with the kernel. -/
theorem loads_kernel (hname : b.disk.read (rootRecord b.disk hdr k) 11 = KERNEL_NAME) {n' : Nat} (hn' : n' ≤ 15)
    (hkernel : HasClusters b.disk hdr (recordStart b.disk (rootRecord b.disk hdr k)) n') :
    ∃ t, Loads b f (volumeRead b ⟨m, []⟩) (.loaded t) ∧ ∀ i < n', PlacedAt t.mem b.disk hdr
      (clusterAt b.disk hdr (recordStart b.disk (rootRecord b.disk hdr k)) i) i := by
  obtain ⟨s, hreturns, hheader, hcode, hplaced⟩ := root_loaded hdisk hfirst h4 hgood hroot
  have hin := hroot.inside
  have hgoes : b.disk (rootRecord b.disk hdr k) ≠ 0 := by
    rw [Mem.read_succ] at hname
    rw [(List.cons.inj hname).1]
    decide
  have hfile : IsFile s.mem 0x8200 f.nameAddress k := by
    refine ⟨fun j hj => ⟨?_, ?_⟩, mt (endsFolder_iff hroot.fits hplaced hin).mp hgoes,
      (hasName_iff hroot.fits hcode hplaced hin).mpr hname⟩
    · exact mt (endsFolder_iff hroot.fits hplaced (by omega)).mp (hroot.others j hj).1
    · exact mt (hasName_iff hroot.fits hcode hplaced (by omega)).mp (hroot.others j hj).2
  obtain ⟨t, hreturns', -, hplaced'⟩ := returns_of_hasClusters (s := s) h4 hgood hheader hn' hkernel
  exact ⟨t, .loaded ⟨hreturns, k, hfile, (recordCluster_root hroot.fits hplaced hin).symm⟩ hreturns', hplaced'⟩

/-- The kernel is entered with all its clusters from `0x8200` on, if line A20 can be enabled and the byte that is
    looked at for it is not 1. -/
theorem kernel_entered (hname : b.disk.read (rootRecord b.disk hdr k) 11 = KERNEL_NAME) {n' : Nat} (hn' : n' ≤ 15)
    (hkernel : HasClusters b.disk hdr (recordStart b.disk (rootRecord b.disk hdr k)) n')
    {g : A20Gate} {line : Bool} (hhigh : m 0x100500 ≠ 1)
    (hline : line = true ∨ g.int15 line = true ∨ g.out92 (g.in92 ||| 2) (g.int15 line) = true) (regs : Find) :
    ∃ N, ∀ rounds ≥ N, ∃ a log, boot b f g rounds regs line ⟨m, []⟩ = .kernel a log ∧
      ∀ i < n', PlacedAt a.mem b.disk hdr (clusterAt b.disk hdr (recordStart b.disk (rootRecord b.disk hdr k)) i) i := by
  obtain ⟨t, hloads, hplaced⟩ := loads_kernel hdisk hfirst h4 hgood hroot hname hn' hkernel
  obtain ⟨N, hN⟩ := hloads.boot_loader hdisk hfirst (hgood 0) regs
  -- no transfer gets to the byte above one megabyte
  have hhigh' : t.mem 0x100500 ≠ 1 := by
    rw [hloads.reads_loaded.high _ (by decide), hfirst.volumeRead_mem (hgood 0), if_neg (by decide)]
    exact hhigh
  have henabled := (enable_a20_iff g ⟨t.mem, line⟩).mpr ⟨hhigh', hline⟩
  refine ⟨N, fun rounds hrounds => ⟨(enable_a20 g ⟨t.mem, line⟩).2, t.log, ?_, fun i hi x h0 hx => ?_⟩⟩
  · rw [boot, hN rounds hrounds]
    exact if_pos henabled
  · rw [enable_a20_mem, Mem.set_other _ _ (by omega)]
    exact hplaced i hi x h0 hx

/-- A disk without a kernel ends with the message that it was not found. -/
theorem kernel_missing (hend : b.disk (rootRecord b.disk hdr k) = 0) (g : A20Gate) (line : Bool) (regs : Find) :
    ∃ N, ∀ rounds ≥ N, ∃ t, boot b f g rounds regs line ⟨m, []⟩ = .failed (.hangs .FIND_ERROR t) := by
  obtain ⟨t, hloads⟩ := loads_none hdisk hfirst h4 hgood hroot hend
  obtain ⟨N, hN⟩ := hloads.boot_loader hdisk hfirst (hgood 0) regs
  refine ⟨N, fun rounds hrounds => ⟨t, ?_⟩⟩
  rw [boot, hN rounds hrounds]

end Run

end SoreOS.Boot
