import SoreOS.Spec.BootChain
import SoreOS.Spec.MediaSessions

/-!
# Booting a built drive

The boot loader on a drive that the media utility has built, and the files that were copied to the volume since.

## Key results

- `bootable_of_image`: the first two sectors of every image are what the boot loader relies on
- `built_boots`: a kernel on the drive is loaded and entered
- `built_empty`: as it is, the drive boots to the message that there is no kernel
-/

namespace SoreOS.Boot

open ForStd MediaUtility

/-! ## The partition entry -/

theorem loadLE_one (m : Bytes) (a : Int) : m.loadLE a 1 = (m a).toNat := by
  rw [Mem.loadLE, Mem.loadLE, Nat.mul_zero, Nat.add_zero]

/-- The fields of the entry that the boot loader reads. -/
theorem firstSectors_entry (hdr : FAT32_HEADER) (data : Bytes) :
    firstSectors hdr data 0x1C1 = 0x02 ∧ firstSectors hdr data 0x1C2 = 0x0C ∧
      (firstSectors hdr data).loadLE 0x1C6 4 = 1 := by
  have hentry : ∀ a : Int, 0x1BD ≤ a → firstSectors hdr data a = addPartition hdr data a := by
    intro a ha
    exact writeArray_outside _ _ _ (by omega)
  have hload : (firstSectors hdr data).loadLE 0x1C6 4 = (addPartition hdr data).loadLE 0x1C6 4 :=
    Mem.loadLE_congr fun i _ => hentry _ (by omega)
  refine ⟨?_, ?_, ?_⟩
  · rw [hentry _ (by decide), ← UInt8.toNat_inj, ← loadLE_one]
    unfold addPartition writeDB writeDD
    simp (disch := omega) only [Mem.loadLE_storeLE_disjoint, Mem.loadLE_storeLE]
    rfl
  · rw [hentry _ (by decide), ← UInt8.toNat_inj, ← loadLE_one]
    unfold addPartition writeDB writeDD
    simp (disch := omega) only [Mem.loadLE_storeLE_disjoint, Mem.loadLE_storeLE]
    rfl
  · rw [hload]
    unfold addPartition writeDB writeDD
    simp (disch := omega) only [Mem.loadLE_storeLE_disjoint, Mem.loadLE_storeLE]
    rfl

/-! ## The image -/

section Image

variable {w : Windows} {n : Nat} {f : BootFile} {disk : Bytes}

/-- A disk that begins with the image of a build can be booted. -/
theorem bootable_of_image (hcode : w.bootLoader = some f.code)
    (hdisk : ∀ i, 0 ≤ i → i < 1024 → disk i = bootImage w (buildHeader w n) i) :
    Bootable f disk (writtenHeader w (buildHeader w n)) := by
  have hlayout := bootImage_layout hcode (buildHeader w n)
  obtain ⟨hsector, htype, hlba⟩ := firstSectors_entry (buildHeader w n) (readBootLoader w (memset w.stack 0 0 (13 * 512))).2
  have hfirst : ∀ i, 0 ≤ i → i < 512 →
      disk i = firstSectors (buildHeader w n) (readBootLoader w (memset w.stack 0 0 (13 * 512))).2 i := by
    intro i h0 hi
    rw [hdisk i h0 (by omega), bootImage, image_apply, if_neg (by omega), if_neg (by omega)]
  -- the partition begins at sector 1
  have hstart : volumeStart disk = 512 := by
    have hload : disk.loadLE 0x1C6 4 = 1 := (Mem.loadLE_congr fun i _ => hfirst _ (by omega) (by omega)).trans hlba
    rw [volumeStart, hload]
  refine ⟨⟨?_, ?_⟩, ?_, fun i hi => ?_⟩
  · rw [hfirst _ (by decide) (by decide), htype]
  · rw [hfirst _ (by decide) (by decide), hsector]
    decide
  · rw [hstart, ← hlayout.header]
    apply readHeader_congr
    intro i h0 hi
    exact hdisk _ (by omega) (by omega)
  -- the code behind the header is that of the second sector
  · rw [hstart, Nat.cast_ofNat, ← Int.add_assoc, hdisk _ (by omega) (by omega)]
    have hbyte := hlayout.volumeCode (0x64 + i) (by omega) (by omega)
    rw [Int.add_assoc, hbyte, bootCode]
    congr 1
    omega

theorem fourSectors_written (w : Windows) (n : Nat) : FourSectors (writtenHeader w (buildHeader w n)) where
  sectorsPerCluster := rfl
  scale := rfl
  mask := rfl

end Image

/-! ## A built drive -/

section Built

variable {w : Windows} {m : Machine} {driveNum : Int} (h : (build w m driveNum).1 = 0)
include h

theorem built_image {i : Int} (h0 : 0 ≤ i) (hi : i < 13 * 512) :
    (build w m driveNum).2.drive i = bootImage w (buildHeader w (m.calls + 1)) i := by
  obtain ⟨hdrive, hres, -⟩ := build_writes_done w m driveNum
  rw [hdrive, hres.mp h]
  exact foldl_image w (m.calls + 1) 3 m.drive h0 hi

variable {f : BootFile} (hcode : w.bootLoader = some f.code) {disk : Bytes}
  (hdisk : ∀ i, 0 ≤ i → i < 1024 → disk i = (build w m driveNum).2.drive i)
include hdisk

/-- The kernel and the boot loader find the same header. -/
theorem built_header : volumeHeader disk = writtenHeader w (buildHeader w (m.calls + 1)) := by
  refine Eq.trans (readHeader_congr ?_) (volumeHeader_image w (buildHeader w (m.calls + 1))
    (readBootLoader w (memset w.stack 0 0 (13 * 512))).2)
  intro i h0 hi
  show disk (512 + i) = bootImage w (buildHeader w (m.calls + 1)) (512 + i)
  rw [hdisk _ (by omega) (by omega), built_image h (by omega) (by omega)]

include hcode

theorem built_bootable : Bootable f disk (volumeHeader disk) ∧ FourSectors (volumeHeader disk) := by
  rw [built_header h hdisk]
  exact ⟨bootable_of_image hcode fun i h0 hi => by rw [hdisk i h0 hi, built_image h h0 (by omega)], fourSectors_written _ _⟩

end Built

/-- A kernel that was copied to a built drive is loaded and entered: a file of up to 15 clusters with the kernel's name in
    the root folder, which has up to 15 clusters itself. -/
theorem built_boots {w : Windows} {machine : Machine} {driveNum : Int} (h : (build w machine driveNum).1 = 0) {f : BootFile}
    (hcode : w.bootLoader = some f.code) {b : Bios}
    (hdisk : ∀ i, 0 ≤ i → i < 1024 → b.disk i = (build w machine driveNum).2.drive i) (hgood : ∀ n, b.succeeds n = true)
    {m : Bytes} (hfirst : FirstSector m b.disk) {n k n' : Nat} (hroot : RootFolder b.disk (volumeHeader b.disk) n k)
    (hname : b.disk.read (rootRecord b.disk (volumeHeader b.disk) k) 11 = KERNEL_NAME) (hn' : n' ≤ 15)
    (hkernel : HasClusters b.disk (volumeHeader b.disk)
      (recordStart b.disk (rootRecord b.disk (volumeHeader b.disk) k)) n')
    {g : A20Gate} {line : Bool} (hhigh : m 0x100500 ≠ 1)
    (hline : line = true ∨ g.int15 line = true ∨ g.out92 (g.in92 ||| 2) (g.int15 line) = true) (regs : Find) :
    ∃ N, ∀ rounds ≥ N, ∃ a log, boot b f g rounds regs line ⟨m, []⟩ = .kernel a log ∧
      ∀ i < n', PlacedAt a.mem b.disk (volumeHeader b.disk)
        (clusterAt b.disk (volumeHeader b.disk) (recordStart b.disk (rootRecord b.disk (volumeHeader b.disk) k)) i) i := by
  obtain ⟨hbootable, h4⟩ := built_bootable h hcode hdisk
  exact kernel_entered hbootable hfirst h4 hgood hroot hname hn' hkernel hhigh hline regs

/-! ## Without a kernel -/

/-- The first record of the root folder. -/
theorem rootRecord_zero {disk : Bytes} {hdr : FAT32_HEADER} (hl : StandardLayout hdr) :
    rootRecord disk hdr 0 = 32783 * 512 := by
  have hlba : clusterLBA hdr 2#32 = 32783#32 := by rw [clusterLBA, hl.clusters]; decide
  show ((clusterLBA hdr 2#32).toNat : Int) * 512 + 32 * (0 % 64 : Nat) = _
  rw [hlba]
  rfl

/-- The root folder of a built drive is one cluster, with the end in its first record. -/
theorem built_root {w : Windows} {m : Machine} {driveNum : Int} (h : (build w m driveNum).1 = 0) :
    RootFolder (build w m driveNum).2.drive (volumeHeader (build w m driveNum).2.drive) 1 0 ∧
      (build w m driveNum).2.drive (rootRecord (build w m driveNum).2.drive
        (volumeHeader (build w m driveNum).2.drive) 0) = 0 := by
  generalize hdrive : (build w m driveNum).2.drive = drive
  obtain ⟨hl, hend, hbyte⟩ := build_root h hdrive.symm
  -- the entry of the root folder is the end mark
  have hnext : clusterAt drive (volumeHeader drive) 2#32 1 = 0x0FFFFFFF#32 := by
    show nextCluster drive (volumeHeader drive) (BitVec.ofNat 32 2) = _
    rw [nextCluster_ofNat _ (by decide) (by rw [hl.fat_toNat]; decide), hend]
  refine ⟨⟨⟨by decide, fun i hi => absurd hi (by omega), hnext⟩, by decide, by decide,
    fun j hj => absurd hj (Nat.not_lt_zero j)⟩, ?_⟩
  rw [rootRecord_zero hl, hbyte]

/-- A drive that was just built boots to the message that there is no kernel, whatever it held before. -/
theorem built_empty {w : Windows} {machine : Machine} {driveNum : Int} (h : (build w machine driveNum).1 = 0) {f : BootFile}
    (hcode : w.bootLoader = some f.code) {b : Bios} (hdisk : b.disk = (build w machine driveNum).2.drive)
    (hgood : ∀ n, b.succeeds n = true) {m : Bytes} (hfirst : FirstSector m b.disk) (g : A20Gate) (line : Bool)
    (regs : Find) :
    ∃ N, ∀ rounds ≥ N, ∃ s, boot b f g rounds regs line ⟨m, []⟩ = .failed (.hangs .FIND_ERROR s) := by
  have himage : ∀ i, 0 ≤ i → i < 1024 → b.disk i = (build w machine driveNum).2.drive i := fun i _ _ => congrFun hdisk i
  obtain ⟨hbootable, h4⟩ := built_bootable h hcode himage
  obtain ⟨hroot, hend⟩ := built_root h
  rw [← hdisk] at hroot hend
  exact kernel_missing hbootable hfirst h4 hgood hroot hend g line regs

/-- A machine on which every call succeeds, with the file of the name. -/
def withName : Windows := withLoader nameOnly.code

theorem withName_builds : (build withName { drive := fun _ => 0 } 1).1 = 0 := withLoader_builds nameOnly.code

/-- A memory before the boot, with the first sector. -/
def sectorLoaded (disk : Bytes) : Bytes := memcpyObj (fun _ => 0) 0x7C00 disk 0 512

theorem firstSector_sectorLoaded (disk : Bytes) : FirstSector (sectorLoaded disk) disk := by
  intro i h0 hi
  rw [sectorLoaded, memcpyObj, Mem.copyFrom_apply, if_pos (by omega)]
  congr 1
  omega

theorem goodBios_disk (disk : Bytes) : (goodBios disk).disk = disk := rfl

theorem built_empty_withName :
    ∃ N, ∀ rounds ≥ N, ∃ s, boot (goodBios (build withName { drive := fun _ => 0 } 1).2.drive) nameOnly
      ⟨id, 0, fun _ => id⟩ rounds ⟨.findFile, 0, 0, 0, 0, 0, false, []⟩ true
      ⟨sectorLoaded (build withName { drive := fun _ => 0 } 1).2.drive, []⟩ = .failed (.hangs .FIND_ERROR s) := by
  have hdisk := goodBios_disk (build withName { drive := fun _ => 0 } 1).2.drive
  have hfirst := firstSector_sectorLoaded (build withName { drive := fun _ => 0 } 1).2.drive
  exact built_empty withName_builds rfl hdisk (fun _ => rfl) (hdisk.symm ▸ hfirst) _ _ _

/-! ## Built drives with files -/

/-- The drive with a given FAT and given contents in its clusters. -/
def builtVolume (fat : Nat → Nat) (data : Nat → Int → UInt8) : Bytes := fun a =>
  if a < 1024 then (build withName { drive := fun _ => 0 } 1).2.drive a else volume fat data a

section BuiltVolume

variable (fat : Nat → Nat) (data : Nat → Int → UInt8)

theorem builtVolume_built :
    ∀ i, 0 ≤ i → i < 1024 → builtVolume fat data i = (build withName { drive := fun _ => 0 } 1).2.drive i := by
  intro i _ hi
  rw [builtVolume, if_pos hi]

theorem builtVolume_volume {a : Int} (ha : 1024 ≤ a) : builtVolume fat data a = volume fat data a := by
  rw [builtVolume, if_neg (by omega)]

theorem builtVolume_layout : StandardLayout (volumeHeader (builtVolume fat data)) := by
  rw [built_header withName_builds (builtVolume_built fat data)]
  exact writtenHeader_layout withName 1

theorem builtVolume_fatNext {c : Nat} (hc : c < 16385 * 128) (hfat : fat c < 256 ^ 4) :
    fatNext (builtVolume fat data) (volumeHeader (builtVolume fat data)) c = fat c := by
  rw [← fatNext_volume fat data hc hfat, fatNext, fatNext, (builtVolume_layout fat data).fat_toNat,
    defaultHeader_layout.fat_toNat]
  apply Mem.loadLE_congr
  intro i _
  exact builtVolume_volume fat data (by omega)

theorem builtVolume_clusterData {c : Nat} (hc : 2 ≤ c) :
    clusterData (builtVolume fat data) (volumeHeader (builtVolume fat data)) c = Mem.read (data c) 0 2048 := by
  rw [← clusterData_volume fat data hc, clusterData, clusterData, (builtVolume_layout fat data).clusters_toNat,
    defaultHeader_layout.clusters_toNat]
  apply Mem.read_congr
  intro i _
  exact builtVolume_volume fat data (by omega)

theorem builtVolume_nextCluster {c : Nat} (hc : c < 16385 * 128) (hfat : fat c < 256 ^ 4) :
    nextCluster (builtVolume fat data) (volumeHeader (builtVolume fat data)) (BitVec.ofNat 32 c) = BitVec.ofNat 32 (fat c) := by
  have hloc := (builtVolume_layout fat data).fat_toNat
  rw [nextCluster_ofNat _ (by omega) (by omega), builtVolume_fatNext fat data hc hfat]

/-- A byte of a cluster. -/
theorem builtVolume_apply {c : Nat} (hc : ValidCluster c) {i : Nat} (hi : i < 2048) :
    builtVolume fat data ((clusterLBA (volumeHeader (builtVolume fat data)) (BitVec.ofNat 32 c)).toNat * 512 + i) = data c i := by
  have hl := builtVolume_layout fat data
  have hlba : (clusterLBA (volumeHeader (builtVolume fat data)) (BitVec.ofNat 32 c)).toNat = 32783 + (c - 2) * 4 := by
    rw [clusterLBA_toNat hl hc, hl.clusters_toNat]
  have h2 := hc.1
  rw [hlba, builtVolume_volume fat data (by omega), volume, if_neg (by omega), if_neg (by omega)]
  rw [show (2 + (((32783 + (c - 2) * 4 : Nat) : Int) * 512 + i - 32783 * 512) / 2048).toNat = c from by omega,
    show (((32783 + (c - 2) * 4 : Nat) : Int) * 512 + i - 32783 * 512) % 2048 = i from by omega]

end BuiltVolume

/-! ## A drive with a kernel -/

/-- The root folder in the clusters 2 and 5, and the kernel in 3 and 4. -/
def kernelFat (c : Nat) : Nat := if c = 2 then 5 else if c = 3 then 4 else 0x0FFFFFFF

/-- The first cluster of the root folder is full of other records; the first record of the second one has the kernel's
    name and the cluster 3. -/
def kernelData (c : Nat) (i : Int) : UInt8 :=
  if c = 5 then if i < 11 then KERNEL_NAME.getD i.toNat 0 else if i = 0x1A then 3 else 0
  else UInt8.ofNat (63 + c)

/-- A built drive with that file. -/
def kernelDrive : Bytes := builtVolume kernelFat kernelData

theorem kernelDrive_built :
    ∀ i, 0 ≤ i → i < 1024 → kernelDrive i = (build withName { drive := fun _ => 0 } 1).2.drive i :=
  builtVolume_built kernelFat kernelData

theorem kernelDrive_next {c : Nat} (hc : c < 16385 * 128) :
    nextCluster kernelDrive (volumeHeader kernelDrive) (BitVec.ofNat 32 c) = BitVec.ofNat 32 (kernelFat c) := by
  refine builtVolume_nextCluster kernelFat kernelData hc ?_
  unfold kernelFat
  split
  · decide
  · split <;> decide

/-- The two clusters of the root folder and of the kernel. -/
theorem kernelDrive_chain {c c' : Nat} (hc : c < 16385 * 128) (hc' : c' < 16385 * 128) (hfat : kernelFat c = c')
    (hend : kernelFat c' = 0x0FFFFFFF) :
    clusterAt kernelDrive (volumeHeader kernelDrive) (BitVec.ofNat 32 c) 1 = BitVec.ofNat 32 c' ∧
      HasClusters kernelDrive (volumeHeader kernelDrive) (BitVec.ofNat 32 c) 2 := by
  have hnext : clusterAt kernelDrive (volumeHeader kernelDrive) (BitVec.ofNat 32 c) 1 = BitVec.ofNat 32 c' := by
    show nextCluster kernelDrive (volumeHeader kernelDrive) (BitVec.ofNat 32 c) = _
    rw [kernelDrive_next hc, hfat]
  refine ⟨hnext, by decide, fun i hi => ?_, ?_⟩
  · obtain rfl : i = 0 := by omega
    intro hmark
    have hnat := congrArg BitVec.toNat (hnext.symm.trans hmark)
    rw [BitVec.toNat_ofNat, BitVec.toNat_ofNat] at hnat
    omega
  · rw [clusterAt_succ, hnext, kernelDrive_next hc', hend]

/-- The records of the root folder. -/
theorem kernelDrive_apply {i j : Nat} (hi : i < 128) (hj : j < 32) :
    kernelDrive (rootRecord kernelDrive (volumeHeader kernelDrive) i + j) =
      kernelData (if i < 64 then 2 else 5) (32 * (i % 64) + j : Nat) := by
  have hat : clusterAt kernelDrive (volumeHeader kernelDrive) 2#32 (i / 64) = BitVec.ofNat 32 (if i < 64 then 2 else 5) := by
    by_cases hfirst : i < 64
    · rw [if_pos hfirst, show i / 64 = 0 from by omega]
      rfl
    · rw [if_neg hfirst, show i / 64 = 1 from by omega]
      exact (kernelDrive_chain (c := 2) (by decide) (by decide) rfl rfl).1
  have hvalid : ValidCluster (if i < 64 then 2 else 5) := by
    unfold ValidCluster dataClusters
    split <;> omega
  have hbyte := builtVolume_apply kernelFat kernelData hvalid (i := 32 * (i % 64) + j) (by omega)
  rw [rootRecord, recordOnDisk, hat, Int.add_assoc]
  exact hbyte

theorem kernelDrive_root : RootFolder kernelDrive (volumeHeader kernelDrive) 2 64 where
  chain := (kernelDrive_chain (c := 2) (by decide) (by decide) rfl rfl).2
  fits := by decide
  inside := by decide
  others := by
    intro i hi
    have hbyte : ∀ j < 32, kernelDrive (rootRecord kernelDrive (volumeHeader kernelDrive) i + (j : Nat)) = 65 := by
      intro j hj
      rw [kernelDrive_apply (by omega) hj, if_pos hi]
      rfl
    have hfirst := hbyte 0 (by decide)
    rw [Int.natCast_zero, Int.add_zero] at hfirst
    refine ⟨by rw [hfirst]; decide, fun hname => ?_⟩
    have hletter := (Mem.read_eq_iff _ _ KERNEL_NAME).mp hname 0 (by decide)
    rw [Int.natCast_zero, Int.add_zero, hfirst] at hletter
    exact absurd hletter (by decide)

/-- The kernel's record, the sixty-fifth. -/
theorem kernelDrive_record : kernelDrive.read (rootRecord kernelDrive (volumeHeader kernelDrive) 64) 11 = KERNEL_NAME ∧
    recordStart kernelDrive (rootRecord kernelDrive (volumeHeader kernelDrive) 64) = 3#32 := by
  have hbyte : ∀ j < 32, kernelDrive (rootRecord kernelDrive (volumeHeader kernelDrive) 64 + (j : Nat)) =
      kernelData 5 (j : Nat) := by
    intro j hj
    rw [kernelDrive_apply (by decide) hj]
    norm_num
  have hword : ∀ j < 31, movw kernelDrive (rootRecord kernelDrive (volumeHeader kernelDrive) 64 + (j : Nat)) =
      movw (kernelData 5 : Bytes) (j : Nat) := by
    intro j hj
    rw [movw, movw]
    refine congrArg (BitVec.ofNat 16) (Mem.loadLE_congr fun i hi => ?_)
    rw [Int.add_assoc, ← Nat.cast_add, hbyte _ (by omega)]
  constructor
  · refine (Mem.read_eq_iff _ _ KERNEL_NAME).mpr fun i hi => ?_
    rw [hbyte i (by have : KERNEL_NAME.length = 11 := rfl; omega)]
    revert i
    decide
  · have hlow := hword 0x1A (by decide)
    have hhigh := hword 0x14 (by decide)
    refine Eq.trans (congrArg₂ (· ++ ·) hhigh hlow) ?_
    decide

theorem sectorLoaded_high (disk : Bytes) : sectorLoaded disk 0x100500 ≠ 1 := by
  rw [sectorLoaded, memcpyObj, Mem.copyFrom_apply, if_neg (by decide)]
  decide

/-- The kernel's two clusters. -/
theorem kernelDrive_kernel : HasClusters kernelDrive (volumeHeader kernelDrive)
    (recordStart kernelDrive (rootRecord kernelDrive (volumeHeader kernelDrive) 64)) 2 := by
  rw [kernelDrive_record.2]
  exact (kernelDrive_chain (c := 3) (by decide) (by decide) rfl rfl).2

theorem built_boots_kernelDrive :
    ∃ N, ∀ rounds ≥ N, ∃ a log, boot (goodBios kernelDrive) nameOnly ⟨id, 0, fun _ => id⟩ rounds
      ⟨.findFile, 0, 0, 0, 0, 0, false, []⟩ true ⟨sectorLoaded kernelDrive, []⟩ = .kernel a log ∧
      PlacedAt a.mem kernelDrive (volumeHeader kernelDrive) 3#32 0 ∧
      PlacedAt a.mem kernelDrive (volumeHeader kernelDrive) 4#32 1 := by
  obtain ⟨N, hN⟩ := built_boots (b := goodBios kernelDrive) (f := nameOnly) withName_builds rfl kernelDrive_built
    (fun _ => rfl) (firstSector_sectorLoaded _) kernelDrive_root kernelDrive_record.1 (by decide) kernelDrive_kernel
    (g := ⟨id, 0, fun _ => id⟩) (sectorLoaded_high _) (.inl rfl) ⟨.findFile, 0, 0, 0, 0, 0, false, []⟩
  refine ⟨N, fun rounds hrounds => ?_⟩
  obtain ⟨a, log, hrun, hplaced⟩ := hN rounds hrounds
  have hfirst := hplaced 0 (by decide)
  have hsecond := hplaced 1 (by decide)
  rw [goodBios_disk, kernelDrive_record.2] at hfirst hsecond
  have hnext : clusterAt kernelDrive (volumeHeader kernelDrive) 3#32 1 = 4#32 :=
    (kernelDrive_chain (c := 3) (by decide) (by decide) rfl rfl).1
  exact ⟨a, log, hrun, hfirst, hnext ▸ hsecond⟩

/-! ## What the kernel can rely on -/

/-- The kernel is called only with the line enabled and the loader's code intact; all reads behind the first
    have succeeded, and what they loaded last is the file with the kernel's name. -/
theorem boot_kernel {b : Bios} {f : BootFile} {g : A20Gate} {rounds : Nat} {regs : Find} {line : Bool} {m : Bytes}
    {a : A20State} {log : List Dap}
    (h : boot b f g rounds regs line ⟨m, []⟩ = .kernel a log) :
    Fat32Entry m ∧ a.line = true ∧ f.isLoaded a.mem = true ∧
      (∀ i, 0 < i → i < log.length → b.succeeds i = true) ∧
      ∃ s, Loads b f (volumeRead b ⟨m, []⟩) (.loaded s) ∧ s.log = log ∧ a.mem = s.mem.set 0x500 1 := by
  by_cases hentry : Fat32Entry m
  · have hloads := @boot_loader_loads b f rounds regs m hentry
    rw [boot] at h
    split at h
    · rename_i s hload
      rw [hload] at hloads
      obtain ⟨hcode, hloads⟩ := hloads rfl
      have hreads := hloads.reads_loaded
      dsimp only at h
      split at h
      · rename_i henabled
        obtain ⟨rfl, rfl⟩ := Booted.kernel.inj h
        have hmem := enable_a20_mem g ⟨s.mem, line⟩
        refine ⟨hentry, enable_a20_line g _ henabled, ?_, fun i h0 hi => ?_, s, hloads, rfl, hmem⟩
        · -- neither the reads nor the test of the line touch the code
          apply isLoaded_congr _ hcode
          intro x hx hx'
          rw [hmem, Mem.set_other _ _ (by omega)]
          exact hreads.loader x hx hx'
        · have hread := hreads.of_first h0 hi
          simpa using hread
      · cases h
    · cases h
  · rw [boot, boot_loader_eq, if_neg hentry] at h
    cases h

theorem boot_kernel_kernelDrive : ∃ rounds a log,
    boot (goodBios kernelDrive) nameOnly ⟨id, 0, fun _ => id⟩ rounds ⟨.findFile, 0, 0, 0, 0, 0, false, []⟩ true
      ⟨sectorLoaded kernelDrive, []⟩ = .kernel a log ∧
    Fat32Entry (sectorLoaded kernelDrive) ∧ a.line = true ∧ nameOnly.isLoaded a.mem = true := by
  obtain ⟨hbootable, h4⟩ := built_bootable (f := nameOnly) withName_builds rfl kernelDrive_built
  obtain ⟨N, hN⟩ := kernel_entered (b := goodBios kernelDrive) hbootable (firstSector_sectorLoaded _) h4 (fun _ => rfl)
    kernelDrive_root kernelDrive_record.1 (by decide) kernelDrive_kernel (g := ⟨id, 0, fun _ => id⟩) (sectorLoaded_high _) (.inl rfl)
    ⟨.findFile, 0, 0, 0, 0, 0, false, []⟩
  obtain ⟨a, log, hrun, -⟩ := hN N (Nat.le_refl N)
  obtain ⟨hentry, hline, hcode, -⟩ := boot_kernel hrun
  exact ⟨N, a, log, hrun, hentry, hline, hcode⟩

end SoreOS.Boot
