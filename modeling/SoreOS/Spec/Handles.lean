import SoreOS.Native.MediaUtility
import SoreOS.ForStd.Ledger

/-!
# Handles

Which handles are open after each function of the media utility, and what `build`
leaves open. Its writers close what they open. A geometry query that fails leaves the
drive open, and a write that fails leaves the volumes open, and locked.

## Key results

- `findVolumesFrom_holds`, `unlockVolumes_holds`: the volumes are opened and closed
- `buildVolumes_closesHandles_iff`: what is closed once the volumes are known
- `build_closesHandles_iff`: when a build closes everything
- `not_closesHandles`: a drive that does not tell its geometry
-/

namespace SoreOS.MediaUtility

open ForStd

/-- The handles in `held` are the open ones. A handle is named by its call, so a call that is yet to come
    opens a new one. -/
structure Holds (m : Machine) (held : List Nat) : Prop where
  ledger : Outstanding m.opened m.closed held
  fresh : ∀ h ∈ m.opened, h < m.calls

/-- Every handle that was obtained has been closed exactly once. -/
def ClosesHandles (m : Machine) : Prop := ∀ h ∈ m.opened, m.closed.count h = 1

theorem Holds.closesHandles_iff {m : Machine} {held : List Nat} (hm : Holds m held) :
    ClosesHandles m ↔ held = [] := hm.ledger.closedOnce_iff

/-- Nothing is open to begin with. -/
theorem holds_nil (n : Nat) (drive : Bytes) : Holds { calls := n, drive := drive } [] :=
  ⟨.nil, fun _ h => absurd h List.not_mem_nil⟩

section Calls

variable {w : Windows} {m m' : Machine} {held held' : List Nat}

/-- Other calls open and close nothing. -/
theorem Holds.call (hm : Holds m held) (hopened : m'.opened = m.opened) (hclosed : m'.closed = m.closed)
    (hcalls : m'.calls = m.calls + 1) : Holds m' held := by
  constructor
  · rw [hopened, hclosed]
    exact hm.ledger
  · intro h hh
    rw [hopened] at hh
    have hlt := hm.fresh h hh
    omega

theorem Holds.of_perm (hm : Holds m held) (hp : held.Perm held') : Holds m held' := ⟨hm.ledger.of_perm hp, hm.fresh⟩

theorem createFile_ok (h : w.succeeds m.calls = true) :
    createFile w m = (some m.calls, { m with calls := m.calls + 1, opened := m.opened ++ [m.calls] }) := if_pos h

theorem createFile_failed (h : w.succeeds m.calls = false) :
    createFile w m = (none, { m with calls := m.calls + 1 }) := if_neg (by simp [h])

theorem createFile_calls : (createFile w m).2.calls = m.calls + 1 := by
  unfold createFile
  split <;> rfl

theorem createFile_eq_none_iff : (createFile w m).1 = none ↔ w.succeeds m.calls = false := by
  unfold createFile
  split <;> simp_all

/-- A file that opens adds its handle. -/
theorem createFile_holds (hm : Holds m held) : Holds (createFile w m).2 ((createFile w m).1.toList ++ held) := by
  by_cases hok : w.succeeds m.calls
  · rw [createFile_ok hok]
    constructor
    · exact hm.ledger.opening fun h => Nat.lt_irrefl _ (hm.fresh _ h)
    · intro h hh
      obtain hold | hnew := List.mem_append.mp hh
      · exact Nat.lt_succ_of_lt (hm.fresh h hold)
      · rw [List.mem_singleton.mp hnew]
        exact Nat.lt_succ_self _
  · rw [createFile_failed (by simpa using hok)]
    exact hm.call rfl rfl rfl

theorem deviceIoControl_holds (hm : Holds m held) (hdevice : Handle) : Holds (deviceIoControl w m hdevice).2 held :=
  hm.call rfl rfl rfl

theorem closeHandle_calls (hdevice : Handle) : (closeHandle m hdevice).calls = m.calls := rfl

/-- An open handle is closed; nothing is closed through the invalid one. -/
theorem closeHandle_holds {hdevice : Handle} (hm : Holds m (hdevice.toList ++ held)) :
    Holds (closeHandle m hdevice) held := by
  cases hdevice with
  | none => exact ⟨by simpa [closeHandle] using hm.ledger, hm.fresh⟩
  | some h => exact ⟨hm.ledger.closing, hm.fresh⟩

theorem writeFile_calls (offset : Int) (buffer : Bytes) (size : Nat) :
    (writeFile w m offset buffer size).2.calls = m.calls + 1 := by
  unfold writeFile
  split <;> rfl

theorem writeFile_holds (hm : Holds m held) (offset : Int) (buffer : Bytes) (size : Nat) :
    Holds (writeFile w m offset buffer size).2 held := by
  unfold writeFile
  split <;> exact hm.call rfl rfl rfl

end Calls

/-! ## Volumes -/

/-- The handles of volumes. -/
def handles (volumes : List (Char × Handle)) : List Nat := volumes.filterMap (·.2)

theorem handles_cons (letter : Char) (vol : Handle) (volumes : List (Char × Handle)) :
    handles ((letter, vol) :: volumes) = vol.toList ++ handles volumes := by
  cases vol <;> rfl

section Volumes

variable {w : Windows} {m : Machine} {held : List Nat}

/-- The volumes of the drive stay open, the others are closed again. -/
theorem findVolumesFrom_holds (hm : Holds m held) (driveNum : Int) (letters : List Char) :
    Holds (findVolumesFrom w driveNum m letters).2 (handles (findVolumesFrom w driveNum m letters).1 ++ held) := by
  induction letters generalizing m held with
  | nil => exact hm
  | cons letter letters ih =>
    have hopened := createFile_holds (w := w) hm
    simp only [findVolumesFrom]
    split
    · rename_i hnone
      rw [hnone] at hopened
      exact ih hopened
    · split
      · rw [handles_cons]
        refine (ih (deviceIoControl_holds hopened _)).of_perm ?_
        rw [List.append_assoc, ← List.append_assoc, ← List.append_assoc]
        exact List.perm_append_comm.append_right held
      · exact ih (closeHandle_holds (deviceIoControl_holds hopened _))

theorem lockVolumes_holds (hm : Holds m held) (volumes : List (Char × Handle)) :
    Holds (lockVolumes w m volumes).2 held := by
  induction volumes generalizing m with
  | nil => exact hm
  | cons vol volumes ih =>
    obtain ⟨_, vol⟩ := vol
    have hlocked := deviceIoControl_holds (w := w) hm vol
    have hdismounted := deviceIoControl_holds (w := w) hlocked vol
    simp only [lockVolumes]
    split
    · exact hlocked
    · split
      · exact hdismounted
      · exact ih hdismounted

theorem unlockVolumes_holds {volumes : List (Char × Handle)} (hm : Holds m (handles volumes ++ held)) :
    Holds (unlockVolumes m volumes) held := by
  induction volumes generalizing m with
  | nil => exact hm
  | cons vol volumes ih =>
    obtain ⟨letter, vol⟩ := vol
    rw [handles_cons, List.append_assoc] at hm
    exact ih (closeHandle_holds hm)

/-- The volumes of a drive among the given number of letters, by the calls that open them, and the next call;
    the first one is call `n`. -/
def attached (w : Windows) (driveNum : Int) : Nat → Nat → List Nat × Nat
  | 0, n => ([], n)
  | letters + 1, n =>
    if w.succeeds n = false then attached w driveNum letters (n + 1)
    else if w.succeeds (n + 1) && w.deviceNumber (n + 1) = UInt32.ofInt driveNum then
      let (volumes, next) := attached w driveNum letters (n + 2)
      (n :: volumes, next)
    else attached w driveNum letters (n + 2)

/-- These volumes are found. -/
theorem findVolumesFrom_attached (driveNum : Int) (letters : List Char) :
    (findVolumesFrom w driveNum m letters).1.map (·.2) = (attached w driveNum letters.length m.calls).1.map some ∧
      (findVolumesFrom w driveNum m letters).2.calls = (attached w driveNum letters.length m.calls).2 := by
  induction letters generalizing m with
  | nil => exact ⟨rfl, rfl⟩
  | cons letter letters ih =>
    simp only [findVolumesFrom, List.length_cons, attached, createFile_eq_none_iff]
    by_cases hopen : w.succeeds m.calls = false
    · simpa only [hopen, if_true, createFile_calls] using ih (m := (createFile w m).2)
    · have hok : w.succeeds m.calls = true := by simpa using hopen
      simp only [hok, Bool.true_eq_false, if_false, createFile_ok, deviceIoControl, Option.isSome_some, Bool.true_and]
      by_cases hmatch : w.succeeds (m.calls + 1) && decide (w.deviceNumber (m.calls + 1) = UInt32.ofInt driveNum)
      · obtain ⟨hvolumes, hcalls⟩ := ih (m := { m with calls := m.calls + 1 + 1, opened := m.opened ++ [m.calls] })
        simp only [hmatch, if_true]
        exact ⟨congrArg (some m.calls :: ·) hvolumes, hcalls⟩
      · simp only [hmatch, Bool.false_eq_true, if_false]
        exact ih

/-- The `count` calls from call `n` on succeed. -/
def Succeed (w : Windows) (n count : Nat) : Prop := ∀ i < count, w.succeeds (n + i) = true

theorem succeed_add (n j k : Nat) : Succeed w n (j + k) ↔ Succeed w n j ∧ Succeed w (n + j) k := by
  constructor
  · intro h
    refine ⟨fun i hi => h i (by omega), fun i hi => ?_⟩
    rw [Nat.add_assoc]
    exact h (j + i) (by omega)
  · intro hgiven i hi
    obtain ⟨hfirst, hrest⟩ := hgiven
    by_cases hj : i < j
    · exact hfirst i hj
    · have hi' := hrest (i - j) (by omega)
      rwa [show n + j + (i - j) = n + i by omega] at hi'

theorem succeed_two (n : Nat) : Succeed w n 2 ↔ w.succeeds n = true ∧ w.succeeds (n + 1) = true := by
  constructor
  · exact fun h => ⟨h 0 (by omega), h 1 (by omega)⟩
  · intro hgiven i hi
    obtain ⟨hfirst, hsecond⟩ := hgiven
    match i with
    | 0 => exact hfirst
    | 1 => exact hsecond

/-- What the handles of valid volumes are. -/
theorem handles_of_map {volumes : List (Char × Handle)} {hs : List Nat} (h : volumes.map (·.2) = hs.map some) :
    handles volumes = hs ∧ volumes.length = hs.length ∧ ∀ vol ∈ volumes, vol.2 ≠ none := by
  refine ⟨?_, by simpa using congrArg List.length h, ?_⟩
  · have hid : handles volumes = (volumes.map (·.2)).filterMap id := by
      rw [List.filterMap_map]
      rfl
    rw [hid, h]
    simp
  · intro vol hvol hnone
    have hmem : vol.2 ∈ hs.map some := h ▸ List.mem_map_of_mem hvol
    simp [hnone] at hmem

/-- Volumes that are open are locked and dismounted by two calls each. -/
theorem lockVolumes_ok {volumes : List (Char × Handle)} (hopen : ∀ vol ∈ volumes, vol.2 ≠ none) :
    ((lockVolumes w m volumes).1 = 0 ↔ Succeed w m.calls (2 * volumes.length)) ∧
      ((lockVolumes w m volumes).1 = 0 → (lockVolumes w m volumes).2.calls = m.calls + 2 * volumes.length) := by
  induction volumes generalizing m with
  | nil => exact ⟨iff_of_true rfl fun i hi => absurd hi (Nat.not_lt_zero i), fun _ => rfl⟩
  | cons vol volumes ih =>
    obtain ⟨letter, vol⟩ := vol
    obtain ⟨h, rfl⟩ := Option.ne_none_iff_exists'.mp (hopen _ List.mem_cons_self)
    obtain ⟨hzero, hcalls⟩ := ih (m := { m with calls := m.calls + 1 + 1 }) fun v hv => hopen v (List.mem_cons_of_mem _ hv)
    -- the calls of the first volume, and those of the others
    rw [List.length_cons, Nat.mul_succ, Nat.add_comm (2 * volumes.length), succeed_add, succeed_two]
    by_cases hlock : w.succeeds m.calls
    · by_cases hdismount : w.succeeds (m.calls + 1)
      · simp only [lockVolumes, deviceIoControl, Option.isSome_some, hlock, hdismount, Bool.and_self, Bool.true_eq_false,
          if_false, true_and]
        refine ⟨hzero, fun h => ?_⟩
        rw [hcalls h]
        exact Nat.add_assoc _ 2 _
      · simp [lockVolumes, deviceIoControl, hlock, hdismount]
    · simp [lockVolumes, deviceIoControl, hlock]

end Volumes

/-! ## The drive -/

section Drive

variable {w : Windows} {m : Machine} {held : List Nat}

/-- The drive is opened and written by two calls. -/
theorem writePhysicalDrive_eq_zero_iff (LBA : Int) (buffer : Bytes) (size : Nat) :
    (writePhysicalDrive w m LBA buffer size).1 = 0 ↔ Succeed w m.calls 2 := by
  rw [succeed_two]
  by_cases hopen : w.succeeds m.calls
  · by_cases hwrite : w.succeeds (m.calls + 1)
    · simp [writePhysicalDrive, createFile_ok, writeFile, hopen, hwrite]
    · simp [writePhysicalDrive, createFile_ok, writeFile, hopen, hwrite]
  · simp [writePhysicalDrive, createFile_failed, hopen]

theorem writePhysicalDrive_next {LBA : Int} {buffer : Bytes} {size : Nat}
    (h : (writePhysicalDrive w m LBA buffer size).1 = 0) :
    (writePhysicalDrive w m LBA buffer size).2.calls = m.calls + 2 := by
  have hopen := ((succeed_two _).mp ((writePhysicalDrive_eq_zero_iff LBA buffer size).mp h)).1
  simp only [writePhysicalDrive, createFile_ok hopen, reduceCtorEq, if_false]
  split <;> rw [closeHandle_calls, writeFile_calls]

/-- Whatever fails, the drive is closed again. -/
theorem writePhysicalDrive_holds (hm : Holds m held) (LBA : Int) (buffer : Bytes) (size : Nat) :
    Holds (writePhysicalDrive w m LBA buffer size).2 held := by
  have hopened := createFile_holds (w := w) hm
  have hclosed := closeHandle_holds (writeFile_holds (w := w) hopened (LBA * 512) buffer size)
  simp only [writePhysicalDrive]
  split
  · rename_i hnone
    rwa [hnone] at hopened
  · split <;> exact hclosed

theorem clearStorage_holds (hm : Holds m held) (hdr : FAT32_HEADER) : Holds (clearStorage w m hdr).2 held := by
  have hwrite := fun {m} (hm : Holds m held) => writePhysicalDrive_holds (w := w) hm
  simp only [clearStorage]
  split
  · exact hwrite hm _ _ _
  split
  · exact hwrite (hwrite hm _ _ _) _ _ _
  split <;> exact hwrite (hwrite (hwrite hm _ _ _) _ _ _) _ _ _

/-- `clearStorage` writes three times, or returns -1. -/
theorem clearStorage_eq (hdr : FAT32_HEADER) :
    Succeed w m.calls 6 ∧ (clearStorage w m hdr).1 = 0 ∨ ¬ Succeed w m.calls 6 ∧ (clearStorage w m hdr).1 = -1 := by
  rw [show 6 = 2 + (2 + 2) from rfl, succeed_add, succeed_add]
  simp only [clearStorage]
  -- the numbers of the calls are known as long as the writes succeed
  split
  · rename_i hfirst
    exact .inr ⟨fun h => hfirst ((writePhysicalDrive_eq_zero_iff ..).mpr h.1), rfl⟩
  rename_i hfirst
  rw [← writePhysicalDrive_next (not_not.mp hfirst)]
  split
  · rename_i hsecond
    exact .inr ⟨fun h => hsecond ((writePhysicalDrive_eq_zero_iff ..).mpr h.2.1), rfl⟩
  rename_i hsecond
  rw [← writePhysicalDrive_next (not_not.mp hsecond)]
  split
  · rename_i hthird
    exact .inr ⟨fun h => hthird ((writePhysicalDrive_eq_zero_iff ..).mpr h.2.2), rfl⟩
  rename_i hthird
  exact .inl ⟨⟨(writePhysicalDrive_eq_zero_iff ..).mp (not_not.mp hfirst),
    (writePhysicalDrive_eq_zero_iff ..).mp (not_not.mp hsecond),
    (writePhysicalDrive_eq_zero_iff ..).mp (not_not.mp hthird)⟩, rfl⟩

/-- The drive is closed once it has told its geometry. -/
theorem setDriveInformation_answered (hm : Holds m held) (hdr : FAT32_HEADER) (hopen : w.succeeds m.calls = true)
    (hquery : w.succeeds (m.calls + 1) = true) :
    (setDriveInformation w m hdr).1 = 0 ∧ (setDriveInformation w m hdr).2.2.calls = m.calls + 2 ∧
      Holds (setDriveInformation w m hdr).2.2 held := by
  have hopened := createFile_holds (w := w) hm
  rw [createFile_ok hopen] at hopened
  simp only [setDriveInformation, createFile_ok hopen, deviceIoControl, hquery, Option.isSome_some, Bool.and_self,
    Bool.true_eq_false, if_false]
  exact ⟨trivial, rfl, closeHandle_holds (hopened.call rfl rfl rfl)⟩

/-- If it does not, its handle stays open: `CloseHandle` stands behind the `return`. -/
theorem setDriveInformation_unanswered (hm : Holds m held) (hdr : FAT32_HEADER) (hopen : w.succeeds m.calls = true)
    (hquery : w.succeeds (m.calls + 1) = false) :
    (setDriveInformation w m hdr).1 = -1 ∧ Holds (setDriveInformation w m hdr).2.2 (m.calls :: held) := by
  have hopened := createFile_holds (w := w) hm
  rw [createFile_ok hopen] at hopened
  simp only [setDriveInformation, createFile_ok hopen, deviceIoControl, hquery, Bool.and_false, if_true]
  exact ⟨trivial, hopened.call rfl rfl rfl⟩

theorem setDriveInformation_unopened (hm : Holds m held) (hdr : FAT32_HEADER) (hopen : w.succeeds m.calls = false) :
    (setDriveInformation w m hdr).1 = -1 ∧ Holds (setDriveInformation w m hdr).2.2 held := by
  have hfailed := createFile_holds (w := w) hm
  rw [createFile_failed hopen] at hfailed
  simp only [setDriveInformation, createFile_failed hopen, deviceIoControl, Option.isSome_none, Bool.false_and, if_true]
  exact ⟨trivial, hfailed.call rfl rfl rfl⟩

end Drive

/-! ## `build` -/

/-- What `build` does with the volumes once the boot image is made. -/
def buildVolumes (w : Windows) (m : Machine) (driveNum : Int) (diskpart : FAT32_HEADER) (data : Bytes) :
    Int × Machine :=
  let (volumes, m) := findVolumes w driveNum m
  let (res, m) := lockVolumes w m volumes
  if res ≠ 0 then (-1, unlockVolumes m volumes)
  else
    let (res, m) := writePhysicalDrive w m 0 data (13 * 512)
    if res ≠ 0 then (-1, m)
    else
      let (res, m) := clearStorage w m diskpart
      if res = -1 then (-1, m) else (0, unlockVolumes m volumes)

/-- What comes before it. -/
theorem build_eq (w : Windows) (m : Machine) (driveNum : Int) : ∃ hdr diskpart data,
    build w m driveNum =
      if (setDriveInformation w m hdr).1 = -1 ∨ w.bootLoader = none then (-1, (setDriveInformation w m hdr).2.2)
      else buildVolumes w (setDriveInformation w m hdr).2.2 driveNum diskpart data := by
  have hread : (readBootLoader w (memset w.stack 0 0 (13 * 512))).1 = -1 ↔ w.bootLoader = none := by
    unfold readBootLoader
    split <;> simp_all
  simp only [build, buildVolumes]
  generalize setPartitionSize (setVolumeName {} ['S', 'o', 'r', 'e', '-', 'O', 'S']) 8388608 = hdr
  refine ⟨hdr, (image w (setDriveInformation w m hdr).2.1 (readBootLoader w (memset w.stack 0 0 (13 * 512))).2).1,
    (image w (setDriveInformation w m hdr).2.1 (readBootLoader w (memset w.stack 0 0 (13 * 512))).2).2, ?_⟩
  by_cases hinfo : (setDriveInformation w m hdr).1 = -1
  · rw [if_pos hinfo, if_pos (.inl hinfo)]
  · by_cases hboot : w.bootLoader = none
    · rw [if_neg hinfo, if_pos (hread.mpr hboot), if_pos (.inr hboot)]
    · rw [if_neg hinfo, if_neg (mt hread.mp hboot), if_neg (not_or.mpr ⟨hinfo, hboot⟩)]

/-- The volumes of a drive are unlocked: there is none, or they cannot be locked, or the writes behind succeed.
    The search for them begins with call `n`. -/
def Unlocks (w : Windows) (driveNum : Int) (n : Nat) : Prop :=
  let (volumes, next) := attached w driveNum 26 n
  volumes = [] ∨ ¬ Succeed w next (2 * volumes.length) ∨ Succeed w (next + 2 * volumes.length) 8

theorem buildVolumes_closesHandles_iff {w : Windows} {m : Machine} (hm : Holds m []) (driveNum : Int)
    (diskpart : FAT32_HEADER) (data : Bytes) :
    ClosesHandles (buildVolumes w m driveNum diskpart data).2 ↔ Unlocks w driveNum m.calls := by
  have hfound : Holds (findVolumes w driveNum m).2 (handles (findVolumes w driveNum m).1 ++ []) :=
    findVolumesFrom_holds hm driveNum _
  have hattached : (findVolumes w driveNum m).1.map (·.2) = (attached w driveNum 26 m.calls).1.map some ∧
    (findVolumes w driveNum m).2.calls = (attached w driveNum 26 m.calls).2 := findVolumesFrom_attached driveNum _
  obtain ⟨hmap, hcalls⟩ := hattached
  obtain ⟨hhandles, hlength, hopen⟩ := handles_of_map hmap
  simp only [buildVolumes, Unlocks]
  rw [← hhandles, ← hcalls]
  rw [← hhandles] at hlength
  generalize (findVolumes w driveNum m).1 = volumes at hfound hlength hopen ⊢
  generalize (findVolumes w driveNum m).2 = m at hfound ⊢
  obtain ⟨hzero, hnext⟩ := lockVolumes_ok (w := w) (m := m) hopen
  have hlocked := lockVolumes_holds (w := w) hfound volumes
  rw [← hlength, ← hzero]
  by_cases hlock : (lockVolumes w m volumes).1 = 0
  · have hwritten := writePhysicalDrive_holds (w := w) hlocked 0 data (13 * 512)
    have hcleared := clearStorage_holds (w := w) hwritten diskpart
    -- from here on the volumes are open, and unlocked only at the end
    have hleft : handles volumes ++ [] = [] ↔ handles volumes = [] := by rw [List.append_nil]
    rw [if_neg (not_not.mpr hlock), ← hnext hlock, show 8 = 2 + 6 from rfl, succeed_add,
      ← writePhysicalDrive_eq_zero_iff 0 data (13 * 512)]
    by_cases hwrite : (writePhysicalDrive w (lockVolumes w m volumes).2 0 data (13 * 512)).1 = 0
    · rw [if_neg (not_not.mpr hwrite), ← writePhysicalDrive_next hwrite]
      obtain ⟨hsucceed, hclear⟩ | ⟨hfails, hclear⟩ := clearStorage_eq (w := w)
        (m := (writePhysicalDrive w (lockVolumes w m volumes).2 0 data (13 * 512)).2) diskpart
      · rw [if_neg (by rw [hclear]; decide)]
        exact iff_of_true ((unlockVolumes_holds hcleared).closesHandles_iff.mpr rfl) (.inr (.inr ⟨hwrite, hsucceed⟩))
      · rw [if_pos hclear, hcleared.closesHandles_iff, hleft]
        simp [hlock, hfails]
    · rw [if_pos hwrite, hwritten.closesHandles_iff, hleft]
      simp [hlock, hwrite]
  · rw [if_pos hlock]
    exact iff_of_true ((unlockVolumes_holds hlocked).closesHandles_iff.mpr rfl) (.inr (.inl hlock))

/-- If call `n` opens the drive, it also has to tell its geometry, and the volumes have to be unlocked unless
    there is no boot loader to write. -/
def ClosesAll (w : Windows) (driveNum : Int) (n : Nat) : Prop :=
  w.succeeds n = true → w.succeeds (n + 1) = true ∧ (w.bootLoader ≠ none → Unlocks w driveNum (n + 2))

/-- A build closes every handle it obtained, exactly once, under that condition and no other. -/
theorem build_closesHandles_iff (w : Windows) (n : Nat) (drive : Bytes) (driveNum : Int) :
    ClosesHandles (build w { calls := n, drive := drive } driveNum).2 ↔ ClosesAll w driveNum n := by
  obtain ⟨hdr, diskpart, data, hbuild⟩ := build_eq w { calls := n, drive := drive } driveNum
  have hm := holds_nil n drive
  rw [hbuild]
  by_cases hopen : w.succeeds n = true
  · by_cases hquery : w.succeeds (n + 1) = true
    · obtain ⟨hinfo, hcalls, hholds⟩ := setDriveInformation_answered hm hdr hopen hquery
      by_cases hboot : w.bootLoader = none
      · rw [if_pos (.inr hboot)]
        exact iff_of_true (hholds.closesHandles_iff.mpr rfl) fun _ => ⟨hquery, fun h => absurd hboot h⟩
      · rw [if_neg (by simp [hinfo, hboot]), buildVolumes_closesHandles_iff hholds, hcalls]
        exact ⟨fun h _ => ⟨hquery, fun _ => h⟩, fun h => (h hopen).2 hboot⟩
    · obtain ⟨hinfo, hholds⟩ := setDriveInformation_unanswered hm hdr hopen (by simpa using hquery)
      rw [if_pos (.inl hinfo), hholds.closesHandles_iff]
      exact iff_of_false (List.cons_ne_nil _ _) fun h => hquery (h hopen).1
  · obtain ⟨hinfo, hholds⟩ := setDriveInformation_unopened hm hdr (by simpa using hopen)
    rw [if_pos (.inl hinfo)]
    exact iff_of_true (hholds.closesHandles_iff.mpr rfl) fun h => absurd h hopen

/-- The drive opens, and nothing else succeeds. -/
def noGeometry : Windows where
  succeeds n := n = 0
  geometry _ := (0, 0)
  deviceNumber _ := 0
  time := 0
  bootLoader := none
  stack _ := 0

theorem not_closesHandles : ¬ ClosesHandles (build noGeometry { drive := fun _ => 0 } 1).2 := by
  intro h
  exact absurd (h 0 (by decide)) (by decide)

end SoreOS.MediaUtility
