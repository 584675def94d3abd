import SoreOS.Spec.LoaderAddress

/-!
# Three copies of the header's layout

The media utility writes the header, the kernel reads it back, and the boot loader takes
five fields from fixed addresses. The three agree on every field, and what the kernel has
read is written again byte for byte.

## Key results

- `eq_of_readHeader_eq`: buffers with the same header agree on its fields' bytes
- `header_copies`: the kernel and the loader read what the utility wrote
-/

namespace SoreOS

open ForStd

/-- The fields of a header on disk: the offset and the number of bytes of each. -/
def headerFields : List (Int × Nat) := [
  (0x03, 8), (0x0B, 2), (0x0D, 1), (0x0E, 2), (0x10, 1), (0x11, 2), (0x13, 2), (0x15, 1), (0x16, 2),
  (0x18, 2), (0x1A, 2), (0x1C, 4), (0x20, 4), (0x24, 4), (0x28, 2), (0x2A, 2), (0x2C, 4), (0x30, 2),
  (0x32, 2), (0x34, 2), (0x38, 2), (0x3C, 2), (0x40, 1), (0x41, 1), (0x42, 1), (0x43, 4), (0x47, 11),
  (0x52, 8), (0x5A, 4), (0x5E, 4), (0x62, 1), (0x63, 1)]

/-! ## Equal fields have equal bytes -/

/-- Two buffers have the same bytes in a field. -/
def SameBytes (b b' : Bytes) (f : Int × Nat) : Prop := ∀ i : Nat, i < f.2 → b (f.1 + i) = b' (f.1 + i)

section SameBytes

variable {b b' : Bytes} {off : Int}

theorem sameBytes_of_loadLE {n : Nat} (h : b.loadLE off n = b'.loadLE off n) : SameBytes b b' (off, n) :=
  fun _ hi => Mem.eq_of_loadLE_eq h hi

theorem sameBytes_DB (h : readDB b off = readDB b' off) : SameBytes b b' (off, 1) := by
  apply sameBytes_of_loadLE
  have hlt := b.loadLE_lt off 1
  have hlt' := b'.loadLE_lt off 1
  have heq := congrArg UInt8.toNat h
  rw [readDB, readDB, UInt8.toNat_ofNat', UInt8.toNat_ofNat'] at heq
  omega

theorem sameBytes_DW (h : readDW b off = readDW b' off) : SameBytes b b' (off, 2) := by
  apply sameBytes_of_loadLE
  have hlt := b.loadLE_lt off 2
  have hlt' := b'.loadLE_lt off 2
  have heq := congrArg UInt16.toNat h
  rw [readDW, readDW, UInt16.toNat_ofNat', UInt16.toNat_ofNat'] at heq
  omega

theorem sameBytes_DD (h : readDD b off = readDD b' off) : SameBytes b b' (off, 4) := by
  apply sameBytes_of_loadLE
  have hlt := b.loadLE_lt off 4
  have hlt' := b'.loadLE_lt off 4
  have heq := congrArg UInt32.toNat h
  rw [readDD, readDD, UInt32.toNat_ofNat', UInt32.toNat_ofNat'] at heq
  omega

theorem sameBytes_array {n : Nat} (h : readArray b off n = readArray b' off n) : SameBytes b b' (off, n) :=
  fun i hi => congrFun h ⟨i, hi⟩

end SameBytes

/-- Buffers that the kernel reads the same header from have the same bytes in all fields. -/
theorem eq_of_readHeader_eq {b b' : Bytes} (h : readHeader b = readHeader b') :
    ∀ f ∈ headerFields, SameBytes b b' f := by
  unfold headerFields
  simp only [List.forall_mem_cons]
  -- one field after the other, in their order on the disk
  exact ⟨sameBytes_array (congrArg (·.OEM_NAME) h),
    sameBytes_DW (congrArg (·.A_BF_BPB_BytesPerSector) h),
    sameBytes_DB (congrArg (·.A_BF_BPB_SectorsPerCluster) h),
    sameBytes_DW (congrArg (·.A_BF_BPB_ReservedSectors) h),
    sameBytes_DB (congrArg (·.A_BF_BPB_NumberOfFATs) h),
    sameBytes_DW (congrArg (·.A_BF_BPB_RootEntries) h),
    sameBytes_DW (congrArg (·.A_BF_BPB_TotalSectors) h),
    sameBytes_DB (congrArg (·.A_BF_BPB_MediaDescriptor) h),
    sameBytes_DW (congrArg (·.A_BF_BPB_SectorsPerFAT) h),
    sameBytes_DW (congrArg (·.A_BF_BPB_SectorsPerTrack) h),
    sameBytes_DW (congrArg (·.A_BF_BPB_Heads) h),
    sameBytes_DD (congrArg (·.A_BF_BPB_HiddenSectors) h),
    sameBytes_DD (congrArg (·.A_BF_BPB_BigTotalSectors) h),
    sameBytes_DD (congrArg (·.A_BF_BPB_BigSectorsPerFat) h),
    sameBytes_DW (congrArg (·.A_BF_BPB_ExtFlags) h),
    sameBytes_DW (congrArg (·.A_BF_BPB_FS_Version) h),
    sameBytes_DD (congrArg (·.A_BF_BPB_RootDirStrtClus) h),
    sameBytes_DW (congrArg (·.A_BF_BPB_FSInfoSec) h),
    sameBytes_DW (congrArg (·.A_BF_BPB_BkUpBootSec) h),
    sameBytes_DW (congrArg (·.A_BF_BPB_Reserved1) h),
    sameBytes_DW (congrArg (·.A_BF_BPB_Reserved2) h),
    sameBytes_DW (congrArg (·.A_BF_BPB_Reserved3) h),
    sameBytes_DB (congrArg (·.A_BF_BPB_DriveNum) h),
    sameBytes_DB (congrArg (·.A_BF_BPB_Reserved4) h),
    sameBytes_DB (congrArg (·.A_BF_BPB_Signature) h),
    sameBytes_DD (congrArg (·.A_BF_BPB_VolumeID) h),
    sameBytes_array (congrArg (·.A_BF_BPB_VolumeLabel) h),
    sameBytes_array (congrArg (·.A_BF_BPB_FAT_Name) h),
    sameBytes_DD (congrArg (·.LBA_FAT_Location) h),
    sameBytes_DD (congrArg (·.LBA_Cluster_Location) h),
    sameBytes_DB (congrArg (·.Scale_SectorsPerCluster) h),
    sameBytes_DB (congrArg (·.Mask_SectorRotation) h),
    fun _ hf => absurd hf List.not_mem_nil⟩

/-! ## The three copies -/

/-- The kernel reads the header that the media utility wrote, writing it to any buffer gives
    the same bytes in all fields, and so do the loader's reads of the sector in memory. -/
theorem header_copies (hdr : FAT32_HEADER) (b : Bytes) :
    readHeader (writeBinary hdr b) = hdr ∧
    (∀ b', ∀ f ∈ headerFields,
      SameBytes (writeBinary (readHeader (writeBinary hdr b)) b') (writeBinary hdr b) f) ∧
    ∀ m : Bytes, (∀ i, 0 ≤ i → i < 512 → m (0x7E00 + i) = writeBinary hdr b i) → Boot.HoldsHeader m hdr := by
  refine ⟨readHeader_writeBinary hdr b, fun b' => eq_of_readHeader_eq ?_, fun m hm => ?_⟩
  · rw [readHeader_writeBinary, readHeader_writeBinary]
  · exact Boot.holdsHeader_writeBinary hm

end SoreOS
