import SoreOS.Spec.BootImage
import SoreOS.Spec.Handles

/-!
# The writes of a build

`build` writes to the drive four times, once everything else has succeeded, and stops at the first write
that fails. So a drive is left with some of the writes, in their order, and the result says whether these
are all.

## Key results

- `writeAll_drive`: a list of writes that stops at the first failure
- `build_stops`, `build_continues`: what comes before the writes
- `build_writes_done`: the drive after a build, whichever calls fail
-/

namespace SoreOS.MediaUtility

open ForStd

/-! ## Writes in a row -/

/-- A block for the drive, from a sector on. -/
structure Write where
  LBA : Int
  buffer : Bytes
  size : Nat

/-- The drive with the block. -/
def Write.apply (drive : Bytes) (wr : Write) : Bytes := memcpyObj drive (wr.LBA * 512) wr.buffer 0 wr.size

/-- The writes one after the other, up to the first that fails. -/
def writeAll (w : Windows) (m : Machine) : List Write → Int × Machine
  | [] => (0, m)
  | wr :: ws =>
    let (res, m) := writePhysicalDrive w m wr.LBA wr.buffer wr.size
    if res ≠ 0 then (-1, m) else writeAll w m ws

/-- How many of `count` writes succeed, from call `n` on. -/
def writesDone (w : Windows) (n : Nat) : Nat → Nat
  | 0 => 0
  | count + 1 => if w.succeeds n && w.succeeds (n + 1) then writesDone w (n + 2) count + 1 else 0

section Writes

variable {w : Windows} {m : Machine}

theorem writesDone_le (n count : Nat) : writesDone w n count ≤ count := by
  induction count generalizing n with
  | zero => exact Nat.le_refl 0
  | succ count ih =>
    rw [writesDone]
    split
    · exact Nat.succ_le_succ (ih _)
    · exact Nat.zero_le _

/-- A write that fails leaves the drive alone. -/
theorem writePhysicalDrive_failed {LBA : Int} {buffer : Bytes} {size : Nat}
    (h : (writePhysicalDrive w m LBA buffer size).1 ≠ 0) :
    (writePhysicalDrive w m LBA buffer size).2.drive = m.drive := by
  simp only [writePhysicalDrive, writeFile] at h ⊢
  split at h
  · rename_i hopen
    rw [if_pos hopen, createFile_drive]
  · rename_i hopen
    rw [if_neg hopen]
    by_cases hok : w.succeeds (createFile w m).2.calls = true
    · simp [hok] at h
    · simp [hok]

theorem writeAll_drive (ws : List Write) :
    (writeAll w m ws).2.drive = (ws.take (writesDone w m.calls ws.length)).foldl Write.apply m.drive ∧
      ((writeAll w m ws).1 = 0 ↔ writesDone w m.calls ws.length = ws.length) ∧
      ((writeAll w m ws).1 = 0 ∨ (writeAll w m ws).1 = -1) := by
  induction ws generalizing m with
  | nil => exact ⟨rfl, iff_of_true rfl rfl, .inl rfl⟩
  | cons wr ws ih =>
    simp only [writeAll, List.length_cons, writesDone]
    have hzero := writePhysicalDrive_eq_zero_iff (w := w) (m := m) wr.LBA wr.buffer wr.size
    rw [succeed_two, ← Bool.and_eq_true_iff] at hzero
    by_cases hwrite : (writePhysicalDrive w m wr.LBA wr.buffer wr.size).1 = 0
    · obtain ⟨hdrive, hres, hres'⟩ := ih (m := (writePhysicalDrive w m wr.LBA wr.buffer wr.size).2)
      rw [writePhysicalDrive_next hwrite] at hdrive hres
      rw [if_neg (not_not.mpr hwrite), if_pos (hzero.mp hwrite), List.take_succ_cons, List.foldl_cons, Write.apply,
        ← writePhysicalDrive_ok hwrite]
      exact ⟨hdrive, hres.trans Nat.succ_inj.symm, hres'⟩
    · rw [if_pos hwrite, if_neg (mt hzero.mpr hwrite), List.take_zero]
      have hres : (-1 : Int) ≠ 0 := by decide
      exact ⟨writePhysicalDrive_failed hwrite, iff_of_false hres (Nat.succ_ne_zero _).symm, .inr rfl⟩

/-- `clearStorage` writes three times. -/
def clearWrites (stack : Bytes) (hdr : FAT32_HEADER) : List Write :=
  let FAT1_begin := toInt hdr.LBA_FAT_Location.toNat
  [⟨FAT1_begin, clearFAT stack, 512⟩,
    ⟨toInt (hdr.A_BF_BPB_BigSectorsPerFat.toNat + FAT1_begin), clearFAT stack, 512⟩,
    ⟨toInt hdr.LBA_Cluster_Location.toNat, memset stack 0 0 2048, 2048⟩]

theorem clearStorage_writeAll (hdr : FAT32_HEADER) : clearStorage w m hdr = writeAll w m (clearWrites w.stack hdr) := by
  simp only [clearStorage, writeAll, clearWrites]

end Writes

/-! ## The writes of `build` -/

/-- The header once the drive has told its geometry. -/
def buildHeader (w : Windows) (n : Nat) : FAT32_HEADER :=
  { defaultHeader with
    A_BF_BPB_Heads := (w.geometry n).1.toUInt16
    A_BF_BPB_SectorsPerTrack := (w.geometry n).2.toUInt16 }

/-- The image, the first sectors of the FATs and the root folder. -/
def buildWrites (w : Windows) (n : Nat) : List Write :=
  ⟨0, bootImage w (buildHeader w n), 13 * 512⟩ :: clearWrites w.stack (writtenHeader w (buildHeader w n))

/-- How many of the writes succeed, if the search for the volumes begins with call `n`: none, if one of the two calls
    for each volume fails. -/
def volumesDone (w : Windows) (driveNum : Int) (n : Nat) : Nat :=
  let (volumes, next) := attached w driveNum 26 n
  if (List.range (2 * volumes.length)).all fun i => w.succeeds (next + i)
  then writesDone w (next + 2 * volumes.length) 4
  else 0

/-- How many of the writes of a build succeed that begins with call `n`: none without the geometry and
    the boot loader. -/
def buildDone (w : Windows) (driveNum : Int) (n : Nat) : Nat :=
  if w.succeeds n && w.succeeds (n + 1) && w.bootLoader.isSome then volumesDone w driveNum (n + 2) else 0

section Build

variable {w : Windows} {m : Machine}

/-- With the volumes locked the writes follow. -/
theorem buildVolumes_locked {driveNum : Int} (hdr : FAT32_HEADER) (data : Bytes)
    (hlock : (lockVolumes w (findVolumes w driveNum m).2 (findVolumes w driveNum m).1).1 = 0) :
    let r := writeAll w (lockVolumes w (findVolumes w driveNum m).2 (findVolumes w driveNum m).1).2
      (⟨0, data, 13 * 512⟩ :: clearWrites w.stack hdr)
    (buildVolumes w m driveNum hdr data).1 = r.1 ∧ (buildVolumes w m driveNum hdr data).2.drive = r.2.drive := by
  simp only [buildVolumes, writeAll, clearStorage_writeAll]
  rw [if_neg (not_not.mpr hlock)]
  split
  · exact ⟨rfl, rfl⟩
  · -- `clearStorage` returns 0 or -1
    obtain ⟨-, -, hzero | hfailed⟩ := writeAll_drive (w := w)
      (m := (writePhysicalDrive w (lockVolumes w (findVolumes w driveNum m).2 (findVolumes w driveNum m).1).2 0 data
        (13 * 512)).2) (clearWrites w.stack hdr)
    · rw [if_neg (by rw [hzero]; decide)]
      exact ⟨hzero.symm, unlockVolumes_drive _ _⟩
    · rw [if_pos hfailed]
      exact ⟨hfailed.symm, rfl⟩

theorem buildVolumes_unlocked {driveNum : Int} (hdr : FAT32_HEADER) (data : Bytes)
    (hlock : (lockVolumes w (findVolumes w driveNum m).2 (findVolumes w driveNum m).1).1 ≠ 0) :
    (buildVolumes w m driveNum hdr data).1 = -1 ∧ (buildVolumes w m driveNum hdr data).2.drive = m.drive := by
  simp only [buildVolumes]
  rw [if_pos hlock]
  refine ⟨rfl, ?_⟩
  rw [unlockVolumes_drive, lockVolumes_drive, findVolumes, findVolumesFrom_drive]

theorem buildVolumes_drive (driveNum : Int) (hdr : FAT32_HEADER) (data : Bytes) :
    let r := buildVolumes w m driveNum hdr data
    let done := volumesDone w driveNum m.calls
    r.2.drive = ((⟨0, data, 13 * 512⟩ :: clearWrites w.stack hdr).take done).foldl Write.apply m.drive ∧
      (r.1 = 0 ↔ done = 4) ∧ (r.1 = 0 ∨ r.1 = -1) := by
  have hattached : (findVolumes w driveNum m).1.map (·.2) = (attached w driveNum 26 m.calls).1.map some ∧
    (findVolumes w driveNum m).2.calls = (attached w driveNum 26 m.calls).2 := findVolumesFrom_attached driveNum _
  obtain ⟨hmap, hcalls⟩ := hattached
  obtain ⟨-, hlength, hopen⟩ := handles_of_map hmap
  -- two calls lock a volume, so all of them succeed exactly if these calls do
  obtain ⟨hzero, hnext⟩ := lockVolumes_ok (w := w) (m := (findVolumes w driveNum m).2) hopen
  have hall : (lockVolumes w (findVolumes w driveNum m).2 (findVolumes w driveNum m).1).1 = 0 ↔
      (List.range (2 * (attached w driveNum 26 m.calls).1.length)).all
        (fun i => w.succeeds ((attached w driveNum 26 m.calls).2 + i)) = true := by
    rw [hzero, hlength, hcalls, List.all_eq_true]
    simp only [Succeed, List.mem_range]
  dsimp only [volumesDone]
  by_cases hlock : (lockVolumes w (findVolumes w driveNum m).2 (findVolumes w driveNum m).1).1 = 0
  · obtain ⟨hres, hdrive⟩ := buildVolumes_locked hdr data hlock
    obtain ⟨hwritten, hok, hres'⟩ := writeAll_drive (w := w)
      (m := (lockVolumes w (findVolumes w driveNum m).2 (findVolumes w driveNum m).1).2)
      (⟨0, data, 13 * 512⟩ :: clearWrites w.stack hdr)
    -- up to here nothing has been written
    rw [hnext hlock, hcalls, hlength, lockVolumes_drive, findVolumes, findVolumesFrom_drive] at hwritten
    rw [hnext hlock, hcalls, hlength] at hok
    rw [if_pos (hall.mp hlock), hdrive, hres]
    exact ⟨hwritten, hok, hres'⟩
  · obtain ⟨hres, hdrive⟩ := buildVolumes_unlocked hdr data hlock
    rw [if_neg (mt hall.mpr hlock), hdrive, hres]
    exact ⟨rfl, by decide, .inr rfl⟩

theorem setDriveInformation_drive (hdr : FAT32_HEADER) : (setDriveInformation w m hdr).2.2.drive = m.drive := by
  simp only [setDriveInformation]
  split
  · rw [deviceIoControl_drive, createFile_drive]
  · rw [closeHandle_drive, deviceIoControl_drive, createFile_drive]

/-- The two calls for the geometry. -/
theorem setDriveInformation_eq (hdr : FAT32_HEADER) :
    if w.succeeds m.calls && w.succeeds (m.calls + 1) then
      (setDriveInformation w m hdr).1 = 0 ∧ (setDriveInformation w m hdr).2.2.calls = m.calls + 2 ∧
        (setDriveInformation w m hdr).2.1 = { hdr with
          A_BF_BPB_Heads := (w.geometry (m.calls + 1)).1.toUInt16
          A_BF_BPB_SectorsPerTrack := (w.geometry (m.calls + 1)).2.toUInt16 }
    else (setDriveInformation w m hdr).1 = -1 := by
  cases hopen : w.succeeds m.calls with
  | true =>
    cases hquery : w.succeeds (m.calls + 1) with
    | true => simp [setDriveInformation, createFile_ok hopen, deviceIoControl, hquery, closeHandle]
    | false => simp [setDriveInformation, createFile_ok hopen, deviceIoControl, hquery]
  | false => simp [setDriveInformation, createFile_failed hopen, deviceIoControl]

theorem readBootLoader_res (buffer : Bytes) :
    (readBootLoader w buffer).1 = if w.bootLoader.isSome then 0 else -1 := by
  rw [readBootLoader]
  split
  · rename_i hnone
    rw [hnone]
    rfl
  · rename_i hsome
    rw [hsome]
    rfl

/-- Without the geometry or the boot loader a build ends early. -/
theorem build_stops (driveNum : Int) (h : (w.succeeds m.calls && w.succeeds (m.calls + 1) && w.bootLoader.isSome) = false) :
    (build w m driveNum).1 = -1 ∧ (build w m driveNum).2.drive = m.drive := by
  have hdefault : setPartitionSize (setVolumeName {} ['S', 'o', 'r', 'e', '-', 'O', 'S']) 8388608 = defaultHeader := rfl
  have hinfo := setDriveInformation_eq (w := w) (m := m) defaultHeader
  have hdrive := setDriveInformation_drive (w := w) (m := m) defaultHeader
  simp only [build, hdefault]
  cases hsucceed : w.succeeds m.calls && w.succeeds (m.calls + 1) with
  | false =>
    rw [hsucceed, if_neg Bool.false_ne_true] at hinfo
    rw [if_pos hinfo]
    exact ⟨rfl, hdrive⟩
  | true =>
    rw [hsucceed, Bool.true_and] at h
    rw [hsucceed, if_pos rfl] at hinfo
    rw [if_neg (by rw [hinfo.1]; decide), readBootLoader_res, h, if_pos (if_neg Bool.false_ne_true)]
    exact ⟨rfl, hdrive⟩

/-- With them it goes on with the volumes. -/
theorem build_continues (driveNum : Int)
    (h : (w.succeeds m.calls && w.succeeds (m.calls + 1) && w.bootLoader.isSome) = true) :
    build w m driveNum = buildVolumes w (setDriveInformation w m defaultHeader).2.2 driveNum
      (writtenHeader w (buildHeader w (m.calls + 1))) (bootImage w (buildHeader w (m.calls + 1))) := by
  have hdefault : setPartitionSize (setVolumeName {} ['S', 'o', 'r', 'e', '-', 'O', 'S']) 8388608 = defaultHeader := rfl
  have hinfo := setDriveInformation_eq (w := w) (m := m) defaultHeader
  obtain ⟨hsucceed, hboot⟩ := Bool.and_eq_true_iff.mp h
  rw [if_pos hsucceed] at hinfo
  obtain ⟨hres, -, hhdr⟩ := hinfo
  have hhdr' : (setDriveInformation w m defaultHeader).2.1 = buildHeader w (m.calls + 1) := hhdr
  simp only [build, hdefault]
  rw [if_neg (by rw [hres]; decide), readBootLoader_res, hboot, if_neg (by decide), hhdr']
  generalize buildHeader w (m.calls + 1) = hdr
  have himage : image w hdr (readBootLoader w (memset w.stack 0 0 (13 * 512))).2 = (writtenHeader w hdr, bootImage w hdr) :=
    rfl
  rw [himage]
  simp only [buildVolumes]

/-- The drive after a build is the old one with the first of the writes, as many as succeed; the result is 0
    exactly if these are all. -/
theorem build_writes_done (w : Windows) (m : Machine) (driveNum : Int) :
    (build w m driveNum).2.drive =
        ((buildWrites w (m.calls + 1)).take (buildDone w driveNum m.calls)).foldl Write.apply m.drive ∧
      ((build w m driveNum).1 = 0 ↔ buildDone w driveNum m.calls = 4) ∧
      ((build w m driveNum).1 = 0 ∨ (build w m driveNum).1 = -1) := by
  rw [buildDone]
  cases h : w.succeeds m.calls && w.succeeds (m.calls + 1) && w.bootLoader.isSome with
  | false =>
    obtain ⟨hres, hdrive⟩ := build_stops driveNum h
    rw [if_neg Bool.false_ne_true, hres, hdrive]
    exact ⟨rfl, by decide, .inr rfl⟩
  | true =>
    have hinfo := setDriveInformation_eq (w := w) (m := m) defaultHeader
    rw [if_pos (Bool.and_eq_true_iff.mp h).1] at hinfo
    have hdone := buildVolumes_drive (w := w) (m := (setDriveInformation w m defaultHeader).2.2) driveNum
      (writtenHeader w (buildHeader w (m.calls + 1))) (bootImage w (buildHeader w (m.calls + 1)))
    rw [hinfo.2.1, setDriveInformation_drive] at hdone
    rw [if_pos rfl, build_continues driveNum h]
    exact hdone

end Build

end SoreOS.MediaUtility
