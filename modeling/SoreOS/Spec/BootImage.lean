import SoreOS.Spec.EmptyVolume

/-!
# The boot image

The 13 sectors that `build` writes first, byte by byte: which bytes of the boot
loader survive the six writers that share the buffer, and where the header, the
signatures and the backup copy stand.

## Key results

- `BootImage`: the contents of the 13 sectors
- `image_apply`: each byte of the image from the buffers it was made of
- `build_bootImage`: the image is like that, and a successful build writes it
-/

namespace SoreOS.MediaUtility

open ForStd

/-- The bytes of the boot loader, and zeros behind them. -/
def bootCode (code : List UInt8) : Bytes := fun i => code.getD i.toNat 0

/-- The boot image made from a boot loader and a header. -/
structure BootImage (code : List UInt8) (hdr : FAT32_HEADER) (img : Bytes) : Prop where
  /-- Sector 0 has boot code but for the signature, the partition entry and the mark. -/
  masterBootRecord : ∀ i, 0 ≤ i → i < 0x1FE → (i < 0x1B6 ∨ 0x1BC < i) → (i < 0x1BF ∨ 0x1CD < i) →
    img i = bootCode code i
  /-- Sector 1 has boot code behind the header and up to its mark. -/
  volumeCode : ∀ i, 0x64 ≤ i → i < 0x1FE → img (512 + i) = bootCode code (512 + i)
  header : readHeader (subBuffer img 512) = hdr
  /-- The jump over the header. -/
  jump : img 512 = 0xEB ∧ img 513 = 0x64 ∧ img 514 = 0x90
  mark : img (512 + 0x1FE) = 0x55 ∧ img (512 + 0x1FF) = 0xAA
  backup : ∀ i, 0 ≤ i → i < 3 * 512 → img (7 * 512 + i) = img (1 * 512 + i)
  zeros : ∀ i, 4 * 512 ≤ i ∧ i < 7 * 512 ∨ 10 * 512 ≤ i ∧ i < 13 * 512 → img i = 0

/-! ## The buffers of a build -/

/-- The buffer with the boot loader: at most two sectors of it, and zeros. -/
theorem readBootLoader_apply {w : Windows} {code : List UInt8} (hcode : w.bootLoader = some code) {i : Int}
    (hi : 0 ≤ i) (hi' : i < 13 * 512) :
    (readBootLoader w (memset w.stack 0 0 (13 * 512))).2 i =
      if i < 1024 then bootCode code i else 0 := by
  have hzero : memset w.stack 0 0 (13 * 512) i = 0 := by
    rw [memset, Mem.fill_apply, if_pos (by omega)]
  simp only [readBootLoader, hcode]
  rw [memcpyObj, Mem.copyFrom_apply, hzero, Int.sub_zero, Int.zero_add, Int.zero_add]
  unfold bootCode
  by_cases hlt : i < code.length
  · by_cases hin : i < 1024
    · rw [if_pos (by omega), if_pos hin]
    · rw [if_neg (by omega), if_neg hin]
  · have hnone : code.getD i.toNat 0 = 0 := by
      rw [List.getD_eq_getElem?_getD, List.getElem?_eq_none (by omega), Option.getD_none]
    rw [if_neg (by omega), hnone, ite_self]

/-- The buffer with the partition entry and the signature. -/
def firstSectors (hdr : FAT32_HEADER) (data : Bytes) : Bytes :=
  addSignature (addPartition hdr data) 0x1B6 ['S', 'o', 'r', 'e', '-', 'O', 'S'] 7

/-- Outside the signature, the partition entry and the mark of sector 0 it is as before. -/
theorem firstSectors_outside (hdr : FAT32_HEADER) (data : Bytes) {i : Int} (hsig : i < 0x1B6 ∨ 0x1BC < i)
    (hentry : i < 0x1BF ∨ 0x1CD < i) (hmark : i < 0x1FE ∨ 0x1FF < i) : firstSectors hdr data i = data i := by
  unfold firstSectors addSignature
  rw [writeArray_outside _ _ _ (by omega)]
  unfold addPartition writeDB writeDD
  simp (disch := omega) only [Mem.storeLE_outside]

/-- The three sectors of the file system. -/
def fileSystem (w : Windows) (hdr : FAT32_HEADER) (data : Bytes) : Bytes :=
  (addFileSystem w hdr 1 (subBuffer (firstSectors hdr data) (1 * 512))).2

/-- The image, byte by byte. -/
theorem image_apply (w : Windows) (hdr : FAT32_HEADER) (data : Bytes) (i : Int) :
    (image w hdr data).2 i =
      if 7 * 512 ≤ i ∧ i < 10 * 512 then fileSystem w hdr data (i - 7 * 512)
      else if 1 * 512 ≤ i ∧ i < 4 * 512 then fileSystem w hdr data (i - 1 * 512)
      else firstSectors hdr data i := by
  show memcpy (memcpyObj (firstSectors hdr data) (1 * 512) (fileSystem w hdr data) 0 (3 * 512)) (7 * 512)
    (1 * 512) (3 * 512) i = _
  -- the copy of sectors 1 to 3 goes behind them
  rw [memcpy, Mem.copyUp_of_disjoint _ (by omega), memcpyObj]
  simp only [Mem.copyFrom_apply]
  by_cases hcopy : 7 * 512 ≤ i ∧ i < 10 * 512
  · rw [if_pos hcopy, if_pos (by omega), if_pos (by omega)]
    congr 1
    omega
  · rw [if_neg hcopy, if_neg (by omega)]
    by_cases hfs : 1 * 512 ≤ i ∧ i < 4 * 512
    · rw [if_pos hfs, if_pos (by omega), Int.zero_add]
    · rw [if_neg hfs, if_neg (by omega)]

/-- The image that a build makes for a header. -/
def bootImage (w : Windows) (hdr : FAT32_HEADER) : Bytes :=
  (image w hdr (readBootLoader w (memset w.stack 0 0 (13 * 512))).2).2

section Writers

variable (w : Windows) (hdr : FAT32_HEADER) (data : Bytes)

/-- The header as it is written. -/
def writtenHeader : FAT32_HEADER :=
  { hdr with A_BF_BPB_VolumeID := volumeID w.time, A_BF_BPB_HiddenSectors := 1 }

/-- In its first sector the file system has the written header over the buffer. -/
theorem fileSystem_first {i : Int} (hi : i < 512) :
    fileSystem w hdr data i =
      writeBinary (writtenHeader w hdr) (subBuffer (firstSectors hdr data) (1 * 512)) i := by
  show writeDB (writeDB (addFSInfo (writtenHeader w hdr) (writeBinary (writtenHeader w hdr)
    (subBuffer (firstSectors hdr data) (1 * 512))) 512) 1534 0x55) 1535 0xAA i = _
  unfold addFSInfo writeDB writeDD
  simp (disch := omega) only [Mem.storeLE_outside]

end Writers

/-- Sector 1 of the image. -/
theorem image_volume (w : Windows) (hdr : FAT32_HEADER) (data : Bytes) {i : Int} (hi : 0 ≤ i) (hi' : i < 512) :
    (image w hdr data).2 (512 + i) =
      writeBinary (writtenHeader w hdr) (subBuffer (firstSectors hdr data) (1 * 512)) i := by
  rw [image_apply, if_neg (by omega), if_pos (by omega), show 512 + i - 1 * 512 = i from by omega,
    fileSystem_first w hdr data hi']

/-- Every image is laid out like that. -/
theorem bootImage_layout {w : Windows} {code : List UInt8} (hcode : w.bootLoader = some code)
    (hdr : FAT32_HEADER) : BootImage code (writtenHeader w hdr) (bootImage w hdr) := by
  have hdata := fun i => @readBootLoader_apply w code hcode i
  unfold bootImage
  generalize (readBootLoader w (memset w.stack 0 0 (13 * 512))).2 = data at hdata ⊢
  refine ⟨fun i hi hi' hsig hentry => ?_, fun i hi hi' => ?_, ?_, ⟨?_, ?_, ?_⟩, ⟨?_, ?_⟩,
    fun i hi hi' => ?_, fun i hi => ?_⟩
  · rw [image_apply, if_neg (by omega), if_neg (by omega),
      firstSectors_outside _ _ hsig hentry (.inl hi'), hdata i hi (by omega), if_pos (by omega)]
  · -- behind the header the writers of sector 1 leave the code alone
    rw [image_volume w hdr data (by omega) (by omega),
      writeBinary_outside _ _ (.inr hi) (by omega) (by omega)]
    unfold subBuffer
    rw [firstSectors_outside _ _ (by omega) (by omega) (by omega), hdata _ (by omega) (by omega),
      if_pos (by omega)]
    rfl
  · rw [← readHeader_writeBinary (writtenHeader w hdr) (subBuffer (firstSectors hdr data) (1 * 512))]
    apply readHeader_congr
    intro i hi hi'
    exact image_volume w hdr data hi (by omega)
  · exact (image_volume w hdr data (i := 0) (by omega) (by omega)).trans (writeBinary_marks _ _).1
  · exact (image_volume w hdr data (i := 1) (by omega) (by omega)).trans (writeBinary_marks _ _).2.1
  · exact (image_volume w hdr data (i := 2) (by omega) (by omega)).trans (writeBinary_marks _ _).2.2.1
  · exact (image_volume w hdr data (by omega) (by omega)).trans (writeBinary_marks _ _).2.2.2.1
  · exact (image_volume w hdr data (by omega) (by omega)).trans (writeBinary_marks _ _).2.2.2.2
  · rw [image_apply, image_apply, if_pos (by omega), if_neg (by omega), if_pos (by omega)]
    congr 1
    omega
  · rw [image_apply, if_neg (by omega), if_neg (by omega),
      firstSectors_outside _ _ (by omega) (by omega) (by omega), hdata i (by omega) (by omega),
      if_neg (by omega)]

/-! ## What a build writes -/

/-- The image of a successful build is on the drive; `clearStorage` writes behind it. -/
theorem build_writes {w : Windows} {m : Machine} {driveNum : Int} (h : (build w m driveNum).1 = 0) :
    ∃ hdr, ∀ i : Int, 0 ≤ i → i < 13 * 512 → (build w m driveNum).2.drive i = bootImage w hdr i := by
  obtain ⟨hdr, hl, hdrive⟩ := build_drive_image h
  refine ⟨hdr, fun i hi hi' => ?_⟩
  rw [hdrive, cleared_apply (image_layout w hl _), if_neg (by omega), if_neg (by omega), if_neg (by omega),
    memcpyObj, Mem.copyFrom_apply, if_pos (by omega), Int.zero_add, Int.sub_zero]
  rfl

/-- The image made from a boot loader and any header is laid out as it should be, and a
    successful build writes such an image. -/
theorem build_bootImage (w : Windows) {code : List UInt8} (hcode : w.bootLoader = some code) :
    (∀ hdr, BootImage code (writtenHeader w hdr) (bootImage w hdr)) ∧
    ∀ m driveNum, (build w m driveNum).1 = 0 →
      ∃ hdr, ∀ i : Int, 0 ≤ i → i < 13 * 512 → (build w m driveNum).2.drive i = bootImage w hdr i :=
  ⟨bootImage_layout hcode, fun _ _ => build_writes⟩

/-- A machine on which every call succeeds, with a boot loader. -/
def withLoader (code : List UInt8) : Windows := { allSucceed with bootLoader := some code }

theorem withLoader_builds (code : List UInt8) : (build (withLoader code) { drive := fun _ => 0 } 1).1 = 0 := rfl

/-- A boot loader of two sectors, with all values of a byte. -/
def twoSectors : List UInt8 := (List.range 1024).map UInt8.ofNat

theorem build_bootImage_twoSectors :
    (∀ hdr, BootImage twoSectors (writtenHeader (withLoader twoSectors) hdr) (bootImage (withLoader twoSectors) hdr)) ∧
    ∃ hdr, ∀ i : Int, 0 ≤ i → i < 13 * 512 →
      (build (withLoader twoSectors) { drive := fun _ => 0 } 1).2.drive i = bootImage (withLoader twoSectors) hdr i := by
  obtain ⟨himage, hbuild⟩ := build_bootImage (withLoader twoSectors) rfl
  exact ⟨himage, hbuild _ _ (withLoader_builds twoSectors)⟩

end SoreOS.MediaUtility
