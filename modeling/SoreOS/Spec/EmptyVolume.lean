import SoreOS.Native.MediaUtility
import SoreOS.Spec.Volume

/-!
# The volume after a build

`build` writes the boot image, one sector of each FAT copy and the root
directory. The other sectors of the two FATs keep what the drive held before, so
the volume is empty exactly when they were zero already.

## Key results

- `build_drive`: what is on the drive after a successful build
- `build_emptyVolume_iff`: when the result is an empty volume
- `build_not_emptyVolume`: a used drive on which it is not
-/

namespace SoreOS.MediaUtility

open ForStd

/-! ## Empty volumes -/

/-- Address of a FAT copy; the second one follows the first. -/
def fatAddress (hdr : FAT32_HEADER) (copy : Nat) : Int :=
  (hdr.LBA_FAT_Location.toNat + copy * hdr.A_BF_BPB_BigSectorsPerFat.toNat) * 512

/-- Size of a FAT copy, in bytes. -/
def fatBytes (hdr : FAT32_HEADER) : Nat := hdr.A_BF_BPB_BigSectorsPerFat.toNat * 512

/-- Entry `e` of a FAT copy. -/
def fatEntry (drive : Bytes) (copy e : Nat) : Nat :=
  drive.loadLE (fatAddress (volumeHeader drive) copy + 4 * e) 4

/-- Address of the root directory's cluster. -/
def rootAddress (hdr : FAT32_HEADER) : Int :=
  (hdr.LBA_Cluster_Location.toNat +
    (hdr.A_BF_BPB_RootDirStrtClus.toNat - 2) * hdr.A_BF_BPB_SectorsPerCluster.toNat) * 512

/-- The number of 32-byte records a cluster can hold. -/
def recordsPerCluster (hdr : FAT32_HEADER) : Nat :=
  hdr.A_BF_BPB_SectorsPerCluster.toNat * hdr.A_BF_BPB_BytesPerSector.toNat / 32

/-- The drive holds an empty FAT32 volume. -/
structure EmptyVolume (drive : Bytes) : Prop where
  copies : ∀ i < fatBytes (volumeHeader drive),
    drive (fatAddress (volumeHeader drive) 0 + (i : Nat)) =
      drive (fatAddress (volumeHeader drive) 1 + (i : Nat))
  reserved : fatEntry drive 0 0 = 0x0FFFFFF8 ∧ fatEntry drive 0 1 = 0xFFFFFFFF
  rootEnd : fatEntry drive 0 2 = 0x0FFFFFFF
  free : ∀ e, 3 ≤ e → 4 * e < fatBytes (volumeHeader drive) → fatEntry drive 0 e = 0
  noRecord : ∀ k < recordsPerCluster (volumeHeader drive),
    drive (rootAddress (volumeHeader drive) + 32 * (k : Nat)) = 0

/-! ## What the calls leave on the drive -/

@[simp] theorem createFile_drive (w : Windows) (m : Machine) :
    (createFile w m).2.drive = m.drive := by
  unfold createFile
  split <;> rfl

@[simp] theorem deviceIoControl_drive (w : Windows) (m : Machine) (h : Handle) :
    (deviceIoControl w m h).2.drive = m.drive := rfl

@[simp] theorem closeHandle_drive (m : Machine) (h : Handle) : (closeHandle m h).drive = m.drive := rfl

theorem findVolumesFrom_drive (w : Windows) (driveNum : Int) (m : Machine) (letters : List Char) :
    (findVolumesFrom w driveNum m letters).2.drive = m.drive := by
  induction letters generalizing m with
  | nil => rfl
  | cons letter letters ih =>
    simp only [findVolumesFrom]
    split
    · rw [ih, createFile_drive]
    · split
      · simp only [ih, deviceIoControl_drive, createFile_drive]
      · rw [ih, closeHandle_drive, deviceIoControl_drive, createFile_drive]

theorem lockVolumes_drive (w : Windows) (m : Machine) (volumes : List (Char × Handle)) :
    (lockVolumes w m volumes).2.drive = m.drive := by
  induction volumes generalizing m with
  | nil => rfl
  | cons vol volumes ih =>
    obtain ⟨_, vol⟩ := vol
    simp only [lockVolumes]
    split
    · rfl
    · split
      · rfl
      · rw [ih, deviceIoControl_drive, deviceIoControl_drive]

theorem unlockVolumes_drive (m : Machine) (volumes : List (Char × Handle)) :
    (unlockVolumes m volumes).drive = m.drive := by
  induction volumes generalizing m with
  | nil => rfl
  | cons vol volumes ih =>
    have h := ih (closeHandle m vol.2)
    rwa [closeHandle_drive] at h

/-- A successful query changes two fields of the header and nothing on the drive. -/
theorem setDriveInformation_ok {w : Windows} {m : Machine} {hdr : FAT32_HEADER}
    (h : (setDriveInformation w m hdr).1 ≠ -1) :
    (setDriveInformation w m hdr).2.2.drive = m.drive ∧ ∃ heads spt,
      (setDriveInformation w m hdr).2.1 =
        { hdr with A_BF_BPB_Heads := heads, A_BF_BPB_SectorsPerTrack := spt } := by
  simp only [setDriveInformation] at h ⊢
  split at h
  · exact absurd rfl h
  · rename_i hret
    rw [if_neg hret]
    refine ⟨?_, _, _, rfl⟩
    rw [closeHandle_drive, deviceIoControl_drive, createFile_drive]

/-- A successful write puts the buffer on the drive. -/
theorem writePhysicalDrive_ok {w : Windows} {m : Machine} {LBA : Int} {buffer : Bytes}
    {size : Nat} (h : (writePhysicalDrive w m LBA buffer size).1 = 0) :
    (writePhysicalDrive w m LBA buffer size).2.drive =
      memcpyObj m.drive (LBA * 512) buffer 0 size := by
  simp only [writePhysicalDrive, writeFile] at h ⊢
  split at h
  · simp at h
  · rename_i hopen
    rw [if_neg hopen]
    by_cases hok : w.succeeds (createFile w m).2.calls = true
    · simp only [hok, if_true, Bool.true_eq_false, if_false]
      rw [closeHandle_drive, createFile_drive]
    · simp [hok] at h

/-- The three writes of `clearStorage`. -/
def cleared (drive stack : Bytes) (hdr : FAT32_HEADER) : Bytes :=
  let FAT1_begin := toInt hdr.LBA_FAT_Location.toNat
  let d := memcpyObj drive (FAT1_begin * 512) (clearFAT stack) 0 512
  let d := memcpyObj d (toInt (hdr.A_BF_BPB_BigSectorsPerFat.toNat + FAT1_begin) * 512)
    (clearFAT stack) 0 512
  memcpyObj d (toInt hdr.LBA_Cluster_Location.toNat * 512) (memset stack 0 0 2048) 0 2048

theorem clearStorage_ok {w : Windows} {m : Machine} {hdr : FAT32_HEADER}
    (h : (clearStorage w m hdr).1 ≠ -1) :
    (clearStorage w m hdr).2.drive = cleared m.drive w.stack hdr := by
  simp only [clearStorage] at h ⊢
  split at h
  · exact absurd rfl h
  · rename_i h1
    split at h
    · exact absurd rfl h
    · rename_i h2
      split at h
      · exact absurd rfl h
      · rename_i h3
        rw [if_neg h1, if_neg h2, if_neg h3]
        simp only
        rw [writePhysicalDrive_ok (not_not.mp h3), writePhysicalDrive_ok (not_not.mp h2),
          writePhysicalDrive_ok (not_not.mp h1)]
        rfl

/-! ## The boot image -/

/-- The header keeps the layout it was given. -/
theorem image_header (w : Windows) (hdr : FAT32_HEADER) (data : Bytes) :
    (image w hdr data).1 = { hdr with
      A_BF_BPB_VolumeID := volumeID w.time
      A_BF_BPB_HiddenSectors := 1 } := rfl

/-- The image's second sector holds the header that `image` returns. -/
theorem volumeHeader_image (w : Windows) (hdr : FAT32_HEADER) (data : Bytes) :
    volumeHeader (image w hdr data).2 = (image w hdr data).1 := by
  rw [image_header]
  refine Eq.trans (readHeader_congr ?_) (readHeader_writeBinary _
    (subBuffer (addSignature (addPartition hdr data) 0x1B6 ['S', 'o', 'r', 'e', '-', 'O', 'S'] 7) 512))
  intro i hi hi'
  -- the backup copy, the FSInfo sector and the signatures lie behind the header
  simp only [image, subBuffer]
  rw [memcpy_outside _ _ _ _ (by omega), memcpyObj, Mem.copyFrom_apply, if_pos (by omega)]
  unfold addFileSystem addFSInfo writeDB writeDD
  rw [show (0 : Int) + (512 + i - 1 * 512) = i from by omega]
  simp (disch := omega) only [Mem.storeLE_outside]
  rfl

/-! ## The drive after a build -/

/-- A successful build has written the image and cleared the storage. -/
theorem build_drive_image {w : Windows} {m : Machine} {driveNum : Int} (h : (build w m driveNum).1 = 0) :
    ∃ hdr, StandardLayout hdr ∧ (build w m driveNum).2.drive =
      cleared (memcpyObj m.drive 0 (image w hdr (readBootLoader w (memset w.stack 0 0 (13 * 512))).2).2 0
        (13 * 512)) w.stack (image w hdr (readBootLoader w (memset w.stack 0 0 (13 * 512))).2).1 := by
  have hdefault : setPartitionSize (setVolumeName {} ['S', 'o', 'r', 'e', '-', 'O', 'S']) 8388608 =
      defaultHeader := rfl
  simp only [build, hdefault] at h ⊢
  split at h
  · simp at h
  · rename_i hinfo
    split at h
    · simp at h
    · rename_i hboot
      split at h
      · simp at h
      · rename_i hlock
        split at h
        · simp at h
        · rename_i hwrite
          split at h
          · simp at h
          · rename_i hclear
            -- every call has succeeded; only the geometry of the header comes from the drive
            obtain ⟨hdrive, heads, spt, hhdr⟩ := setDriveInformation_ok hinfo
            refine ⟨{ defaultHeader with
              A_BF_BPB_Heads := heads
              A_BF_BPB_SectorsPerTrack := spt }, ⟨rfl, rfl, rfl, ?_, ?_, ?_⟩, ?_⟩
            · exact defaultHeader_layout.fat
            · exact defaultHeader_layout.sectorsPerFat
            · exact defaultHeader_layout.clusters
            · rw [if_neg hinfo, if_neg hboot, if_neg hlock, if_neg hwrite, if_neg hclear]
              simp only
              rw [unlockVolumes_drive, clearStorage_ok hclear, writePhysicalDrive_ok (not_not.mp hwrite),
                lockVolumes_drive, findVolumes, findVolumesFrom_drive, hdrive, Int.zero_mul, hhdr]

theorem build_drive {w : Windows} {m : Machine} {driveNum : Int} (h : (build w m driveNum).1 = 0) :
    ∃ hdr data, StandardLayout hdr ∧ (build w m driveNum).2.drive =
      cleared (memcpyObj m.drive 0 (image w hdr data).2 0 (13 * 512)) w.stack (image w hdr data).1 := by
  obtain ⟨hdr, hl, hdrive⟩ := build_drive_image h
  exact ⟨hdr, _, hl, hdrive⟩

section Cleared

variable {hdr : FAT32_HEADER} (hl : StandardLayout hdr) (drive stack : Bytes)
include hl

/-- The three blocks `clearStorage` writes on a standard volume. -/
theorem cleared_apply (a : Int) : cleared drive stack hdr a =
    if 32783 * 512 ≤ a ∧ a < 32783 * 512 + 2048 then 0
    else if 16398 * 512 ≤ a ∧ a < 16398 * 512 + 512 then clearFAT stack (a - 16398 * 512)
    else if 13 * 512 ≤ a ∧ a < 13 * 512 + 512 then clearFAT stack (a - 13 * 512)
    else drive a := by
  have hfat : toInt hdr.LBA_FAT_Location.toNat = 13 := by rw [hl.fat]; decide
  have hfat2 : toInt (hdr.A_BF_BPB_BigSectorsPerFat.toNat + 13) = 16398 := by
    rw [hl.sectorsPerFat]; decide
  have hroot : toInt hdr.LBA_Cluster_Location.toNat = 32783 := by rw [hl.clusters]; decide
  simp only [cleared, hfat, hfat2, hroot, memcpyObj, Mem.copyFrom_apply, memset, Mem.fill_apply,
    Int.zero_add]
  by_cases h1 : 32783 * 512 ≤ a ∧ a < 32783 * 512 + 2048
  · rw [if_pos (by omega), if_pos h1, if_pos (by omega)]
  · rw [if_neg (by omega), if_neg h1]
    rfl

theorem fatBytes_eq : fatBytes hdr = 16385 * 512 := by
  rw [fatBytes, hl.sectorsPerFat]
  decide

theorem fatAddress_zero : fatAddress hdr 0 = 13 * 512 := by
  rw [fatAddress, hl.fat, hl.sectorsPerFat]
  decide

theorem fatAddress_one : fatAddress hdr 1 = 16398 * 512 := by
  rw [fatAddress, hl.fat, hl.sectorsPerFat]
  decide

theorem rootAddress_eq : rootAddress hdr = 32783 * 512 := by
  rw [rootAddress, hl.clusters, hl.rootCluster, hl.sectorsPerCluster]
  decide

theorem recordsPerCluster_eq : recordsPerCluster hdr = 64 := by
  rw [recordsPerCluster, hl.sectorsPerCluster, hl.bytesPerSector]
  decide

end Cleared

/-- The first three entries of the sector, and zeros behind them. -/
theorem clearFAT_entries (stack : Bytes) :
    (clearFAT stack).loadLE 0 4 = 0x0FFFFFF8 ∧ (clearFAT stack).loadLE 4 4 = 0xFFFFFFFF ∧
      (clearFAT stack).loadLE 8 4 = 0x0FFFFFFF ∧
      ∀ i, 12 ≤ i → i < 512 → clearFAT stack i = 0 := by
  unfold clearFAT writeDD
  simp (disch := omega) only [Mem.loadLE_storeLE_disjoint, Mem.loadLE_storeLE]
  refine ⟨by decide, by decide, by decide, fun i hi hi' => ?_⟩
  rw [Mem.storeLE_outside _ _ _ _ (by omega), Mem.storeLE_outside _ _ _ _ (by omega),
    Mem.storeLE_outside _ _ _ _ (by omega), memset, Mem.fill_apply, if_pos (by omega)]

/-- The sectors of the two FATs behind the first one were zero. -/
def RestZero (drive : Bytes) : Prop :=
  ∀ i : Int, 512 ≤ i → i < 16385 * 512 →
    drive (13 * 512 + i) = 0 ∧ drive (16398 * 512 + i) = 0

/-- A build over a used drive gives an empty volume exactly when what it does not
    write was empty before. -/
theorem cleared_emptyVolume_iff {hdr : FAT32_HEADER} {drive stack : Bytes} (hl : StandardLayout hdr)
    (hhdr : volumeHeader (cleared drive stack hdr) = hdr) :
    EmptyVolume (cleared drive stack hdr) ↔ RestZero drive := by
  obtain ⟨h0, h1, h2, hz⟩ := clearFAT_entries stack
  have hfirst : ∀ i, 0 ≤ i → i < 512 →
      cleared drive stack hdr (13 * 512 + i) = clearFAT stack i ∧
      cleared drive stack hdr (16398 * 512 + i) = clearFAT stack i := by
    intro i hi hi'
    rw [cleared_apply hl, if_neg (by omega), if_neg (by omega), if_pos (by omega),
      cleared_apply hl, if_neg (by omega), if_pos (by omega)]
    constructor <;> (congr 1; omega)
  have hrest : ∀ i, 512 ≤ i → i < 16385 * 512 →
      cleared drive stack hdr (13 * 512 + i) = drive (13 * 512 + i) ∧
      cleared drive stack hdr (16398 * 512 + i) = drive (16398 * 512 + i) := by
    intro i hi hi'
    rw [cleared_apply hl, if_neg (by omega), if_neg (by omega), if_neg (by omega),
      cleared_apply hl, if_neg (by omega), if_neg (by omega), if_neg (by omega)]
    exact ⟨rfl, rfl⟩
  have hentry : ∀ e : Nat, fatEntry (cleared drive stack hdr) 0 e =
      (cleared drive stack hdr).loadLE (13 * 512 + 4 * e) 4 := by
    intro e
    rw [fatEntry, hhdr, fatAddress_zero hl]
  have hload : ∀ e : Nat, e < 128 → fatEntry (cleared drive stack hdr) 0 e =
      (clearFAT stack).loadLE (4 * e) 4 := by
    intro e he
    rw [hentry]
    apply Mem.loadLE_congr
    intro i hi
    rw [show (13 * 512 + 4 * (e : Int) + (i : Int)) = 13 * 512 + (4 * e + i) from by omega]
    exact (hfirst _ (by omega) (by omega)).1
  constructor
  · intro hempty i hi hi'
    have hfree := hempty.free (i / 4).toNat (by omega) (by rw [hhdr, fatBytes_eq hl]; omega)
    rw [hentry, Mem.loadLE_eq_zero_iff] at hfree
    have hbyte := hfree (i % 4).toNat (by omega)
    rw [show (13 * 512 + 4 * ((i / 4).toNat : Int) + ((i % 4).toNat : Int)) = 13 * 512 + i
      from by omega] at hbyte
    -- the second copy is equal to the first, and both are what the drive held
    have hcopy := hempty.copies i.toNat (by rw [hhdr, fatBytes_eq hl]; omega)
    rw [hhdr, fatAddress_zero hl, fatAddress_one hl, Int.toNat_of_nonneg (by omega)] at hcopy
    obtain ⟨hr, hr'⟩ := hrest i hi hi'
    exact ⟨hr.symm.trans hbyte, hr'.symm.trans (hcopy.symm.trans hbyte)⟩
  · intro hzero
    refine ⟨?_, ⟨?_, ?_⟩, ?_, ?_, ?_⟩
    · rw [hhdr, fatBytes_eq hl, fatAddress_zero hl, fatAddress_one hl]
      intro i hi
      by_cases hlt : (i : Int) < 512
      · rw [(hfirst i (by omega) hlt).1, (hfirst i (by omega) hlt).2]
      · obtain ⟨hd, hd'⟩ := hzero i (by omega) (by omega)
        rw [(hrest i (by omega) (by omega)).1, (hrest i (by omega) (by omega)).2, hd, hd']
    · exact (hload 0 (by omega)).trans h0
    · exact (hload 1 (by omega)).trans h1
    · exact (hload 2 (by omega)).trans h2
    · rw [hhdr, fatBytes_eq hl]
      intro e he he'
      rw [hentry, Mem.loadLE_eq_zero_iff]
      intro i hi
      rw [show (13 * 512 + 4 * (e : Int) + (i : Int)) = 13 * 512 + (4 * e + i) from by omega]
      by_cases hlt : 4 * (e : Int) + i < 512
      · rw [(hfirst _ (by omega) hlt).1]
        exact hz _ (by omega) hlt
      · rw [(hrest _ (by omega) (by omega)).1]
        exact (hzero _ (by omega) (by omega)).1
    · rw [hhdr, rootAddress_eq hl, recordsPerCluster_eq hl]
      intro k hk
      rw [cleared_apply hl, if_pos (by omega)]

/-- Behind the 13 sectors of the image the drive is as before. -/
theorem restZero_image (drive img : Bytes) :
    RestZero (memcpyObj drive 0 img 0 (13 * 512)) ↔ RestZero drive := by
  have hkeep : ∀ a : Int, 13 * 512 ≤ a → memcpyObj drive 0 img 0 (13 * 512) a = drive a := by
    intro a ha
    rw [memcpyObj, Mem.copyFrom_apply, if_neg (by omega)]
  unfold RestZero
  apply forall_congr'
  intro i
  apply forall_congr'
  intro hi
  rw [hkeep _ (by omega), hkeep _ (by omega)]

theorem image_layout (w : Windows) {hdr : FAT32_HEADER} (hl : StandardLayout hdr) (data : Bytes) :
    StandardLayout (image w hdr data).1 where
  bytesPerSector := hl.bytesPerSector
  sectorsPerCluster := hl.sectorsPerCluster
  rootCluster := hl.rootCluster
  fat := hl.fat
  sectorsPerFat := hl.sectorsPerFat
  clusters := hl.clusters

/-- The volume header survives `clearStorage`. -/
theorem volumeHeader_cleared (w : Windows) {hdr : FAT32_HEADER} (hl : StandardLayout hdr)
    (drive data stack : Bytes) :
    volumeHeader (cleared (memcpyObj drive 0 (image w hdr data).2 0 (13 * 512)) stack
      (image w hdr data).1) = (image w hdr data).1 := by
  refine Eq.trans (readHeader_congr ?_) (volumeHeader_image w hdr data)
  intro i hi hi'
  unfold subBuffer
  rw [cleared_apply (image_layout w hl data), if_neg (by omega), if_neg (by omega), if_neg (by omega), memcpyObj,
    Mem.copyFrom_apply, if_pos (by omega), Int.zero_add, Int.sub_zero]

/-- On a built drive the root directory is one cluster, which begins with a zero record. -/
theorem build_root {w : Windows} {m : Machine} {driveNum : Int} (h : (build w m driveNum).1 = 0) {drive : Bytes}
    (hdrive : drive = (build w m driveNum).2.drive) :
    StandardLayout (volumeHeader drive) ∧ fatNext drive (volumeHeader drive) 2 = 0x0FFFFFFF ∧ drive (32783 * 512) = 0 := by
  obtain ⟨hdr, data, hl, hbuilt⟩ := build_drive h
  have hl' := image_layout w hl data
  have hheader : volumeHeader drive = (image w hdr data).1 := by
    rw [hdrive, hbuilt]
    exact volumeHeader_cleared w hl _ _ _
  have hbyte := fun a => congrFun (hdrive.trans hbuilt) a
  simp only [cleared_apply hl'] at hbyte
  rw [hheader]
  refine ⟨hl', ?_, by rw [hbyte, if_pos (by decide)]⟩
  rw [← (clearFAT_entries w.stack).2.2.1, fatNext, hl'.fat_toNat]
  apply Mem.loadLE_congr
  intro i hi
  rw [hbyte, if_neg (by omega), if_neg (by omega), if_pos (by omega)]
  congr 1
  omega

/-- A successful build leaves an empty volume exactly when the sectors of both FATs
    behind the first one were zero before. -/
theorem build_emptyVolume_iff (w : Windows) (m : Machine) (driveNum : Int)
    (h : (build w m driveNum).1 = 0) :
    EmptyVolume (build w m driveNum).2.drive ↔ RestZero m.drive := by
  obtain ⟨hdr, data, hl, hdrive⟩ := build_drive h
  rw [hdrive, cleared_emptyVolume_iff (image_layout w hl data) (volumeHeader_cleared w hl _ _ _),
    restZero_image]

/-- A machine on which every call succeeds. -/
def allSucceed : Windows where
  succeeds := fun _ => true
  geometry := fun _ => (255, 63)
  deviceNumber := fun _ => 1
  time := 0
  bootLoader := some []
  stack := fun _ => 0

/-- A drive of zeros becomes an empty volume. -/
theorem build_emptyVolume_zeros : EmptyVolume (build allSucceed { drive := fun _ => 0 } 1).2.drive :=
  (build_emptyVolume_iff allSucceed { drive := fun _ => 0 } 1 (by decide)).mpr
    fun _ _ _ => ⟨rfl, rfl⟩

/-- A drive of `0xFF` bytes does not, though the build succeeds. -/
theorem build_not_emptyVolume :
    (build allSucceed { drive := fun _ => 0xFF } 1).1 = 0 ∧
      ¬ EmptyVolume (build allSucceed { drive := fun _ => 0xFF } 1).2.drive := by
  have hok : (build allSucceed { drive := fun _ => 0xFF } 1).1 = 0 := by decide
  refine ⟨hok, ?_⟩
  obtain ⟨hdr, data, hl, hdrive⟩ := build_drive hok
  rw [hdrive, cleared_emptyVolume_iff (image_layout _ hl data) (volumeHeader_cleared _ hl _ _ _),
    restZero_image]
  intro hzero
  exact absurd (hzero 512 (by decide) (by decide)).1 (by decide)

end SoreOS.MediaUtility
